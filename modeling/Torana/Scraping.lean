import Torana.Completeness
import Torana.Probing
import Torana.Responses

/-!
The endpoint for `/metrics` and `/healthz` (`serve_metrics`). It reads once and looks for the
second word of the first line of what has arrived, whatever bytes these are; every answer is a
whole HTTP/1.1 response, but which one a request gets can depend on how it arrives.

The registry and its text encoding belong to another crate.
-/
namespace Torana
open Prog (Runs)
open Segments (Delivery)

namespace Scraping

/-! ## The task of a connection -/

inductive Scrape where
  /-- `stream.read` under a timeout: nothing when it fails or time is up. -/
  | read (timeout : Config.Duration)
  /-- `encoder.encode(&registry.gather(), ..)`. -/
  | gather
  | warn (message : String)
  | write (timeout : Config.Duration) (text : String)

@[reducible] def Scrape.Res : Scrape → Type
  | .read _ => Option (List UInt8)
  | .gather => Except String (List UInt8)
  | _ => Unit

abbrev ScrapeProgram (α : Type) := Prog Scrape Scrape.Res α
abbrev scrape (a : Scrape) : ScrapeProgram a.Res := Prog.call a

/-- `str::lines().next()`: the first line without the characters that end it. -/
def firstLine (s : List Char) : Option (List Char) :=
  if s = [] then none
  else if '\n' ∈ s then
    let line := s.takeWhile (· ≠ '\n')
    some (if line.getLast? = some '\r' then line.dropLast else line)
  else some s

/-- The second word of the first line. -/
def requestPath (head : List Char) : List Char :=
  ((firstLine head).bind fun line => (Text.splitWhitespace line)[1]?).getD "/".toList

def healthzPath : List Char := "/healthz".toList

/-- What one read returned asks for `/healthz`; the buffer has 1024 bytes. -/
def isHealthz (bytes : List UInt8) : Bool := healthzPath.isPrefixOf (requestPath (Text.decodeLossy (bytes.take 1024)))

def responseText (status contentType body : String) : String :=
  let length := (Text.asBytes body.toList).length
  s!"HTTP/1.1 {status}\r\nContent-Type: {contentType}\r\nContent-Length: {length}\r\nConnection: close\r\n\r\n{body}"

def healthzText : String := responseText "200 OK" "text/plain" "ok"

def metricsText (buffer : List UInt8) : String :=
  responseText "200 OK" "text/plain; version=0.0.4" (String.ofList (Text.decodeLossy buffer))

/-- What `serve_metrics` spawns for a connection. -/
def serveScrape : ScrapeProgram Unit := do
  match ← scrape (.read 2000) with
  | none => return ()
  | some bytes =>
    if bytes = [] then return ()
    else if isHealthz bytes then scrape (.write 5000 healthzText)
    else do
      match ← scrape .gather with
      | .error e => scrape (.warn s!"Failed to encode metrics: {e}")
      | .ok buffer => scrape (.write 5000 (metricsText buffer))

/-! ## Which requests are answered how -/

/-- The first line begins with what the text begins with, up to the end of a line. -/
theorem firstLine_append {front : List Char} (plain : ∀ c ∈ front, c ≠ '\r' ∧ c ≠ '\n') (filled : front ≠ [])
    (behind : List Char) : ∃ more, (behind = [] → more = []) ∧ firstLine (front ++ behind) = some (front ++ more) := by
  have nonempty : front ++ behind ≠ [] := by simp [filled]
  have absent : '\n' ∉ front := fun member => (plain _ member).2 rfl
  unfold firstLine
  rw [if_neg nonempty]
  by_cases ends : '\n' ∈ front ++ behind
  · have taken : (front ++ behind).takeWhile (· ≠ '\n') = front ++ behind.takeWhile (· ≠ '\n') := by
      rw [List.takeWhile_append_of_pos]
      intro c member
      simpa using (plain c member).2
    rw [if_pos ends, taken]
    by_cases bare : behind.takeWhile (· ≠ '\n') = []
    · refine ⟨[], fun _ => rfl, ?_⟩
      have last : ¬ front.getLast? = some '\r' := by
        intro same
        exact (plain _ (List.mem_of_getLast? same)).1 rfl
      simp only [bare, List.append_nil, if_neg last]
    · have whole : behind ≠ [] := by
        rintro rfl
        exact bare rfl
      by_cases returned : (front ++ behind.takeWhile (· ≠ '\n')).getLast? = some '\r'
      · refine ⟨(behind.takeWhile (· ≠ '\n')).dropLast, fun empty => absurd empty whole, ?_⟩
        simp only [if_pos returned, List.dropLast_append_of_ne_nil bare]
      · exact ⟨behind.takeWhile (· ≠ '\n'), fun empty => absurd empty whole, by simp only [if_neg returned]⟩
  · rw [if_neg ends]
    exact ⟨behind, id, rfl⟩

theorem visible_dense {c : Char} (visible : 33 ≤ c.toNat ∧ c.toNat < 127) : Text.isWhitespace c = false := by
  simp only [Text.isWhitespace, Bool.or_eq_false_iff, Bool.and_eq_false_iff, decide_eq_false_iff_not]
  omega

section
variable (r : Messages.Request)

/-- A request line up to its version. -/
def start : List Char := r.method ++ ' ' :: (r.target ++ [' '])

theorem method_visible : r.method ≠ [] ∧ ∀ c ∈ r.method, 33 ≤ c.toNat ∧ c.toNat < 127 := by
  have token := r.token
  rw [Messages.isToken, Bool.and_eq_true, decide_eq_true_eq] at token
  exact ⟨token.1, fun c member => Responses.tokenChar_visible (List.all_eq_true.mp token.2 c member)⟩

theorem target_visible : r.target ≠ [] ∧ ∀ c ∈ r.target, 33 ≤ c.toNat ∧ c.toNat < 127 := by
  have origin := r.origin
  rw [Uris.isOriginForm, Bool.and_eq_true, decide_eq_true_eq] at origin
  refine ⟨fun empty => by simp [empty] at origin, fun c member => ?_⟩
  have visible := Uris.originForm_visible r.origin c member
  exact ⟨visible.1, visible.2.1⟩

theorem start_chars : ∀ c ∈ start r, c.toNat < 128 ∧ c ≠ '\r' ∧ c ≠ '\n' := by
  intro c member
  simp only [start, List.mem_append, List.mem_cons, List.not_mem_nil, or_false] at member
  rcases member with method | rfl | target | rfl
  · have visible := (method_visible r).2 c method
    exact ⟨by omega, (Messages.token_chars r.token c method).2.2⟩
  · decide
  · have visible := (target_visible r).2 c target
    exact ⟨by omega, (Messages.origin_chars r.origin c target).2⟩
  · decide

/-- A written request begins with its line. -/
theorem written : ∃ rest, Text.asBytes (Messages.writeRequest r) = Text.asBytes (start r) ++ rest := by
  refine ⟨Text.asBytes (['H', 'T', 'T', 'P', '/', '1', '.', '1', '\r', '\n'] ++
    ((r.fields.flatMap fun f => Messages.writeLine (Messages.writeField f)) ++ Messages.writeLine [])), ?_⟩
  have version : "HTTP/1.1".toList = ['H', 'T', 'T', 'P', '/', '1', '.', '1'] := rfl
  rw [← Responses.bytes_append, Messages.writeRequest, Messages.writeLine, start, version]
  simp only [List.append_assoc, List.cons_append, List.nil_append]

/-- The words of what has arrived of a request line: the method, and as much of the target. -/
theorem words_start {n : Nat} (positive : 0 < n) {more : List Char} (ends : n ≤ (start r).length → more = []) :
    (Text.splitWhitespace ((start r).take n ++ more))[1]? =
      if n ≤ r.method.length + 1 then none else some (r.target.take (n - (r.method.length + 1))) := by
  have length : (start r).length = r.method.length + 1 + r.target.length + 1 := by
    simp only [start, List.length_append, List.length_cons, List.length_nil]
    omega
  obtain ⟨method, visible⟩ := method_visible r
  have dense : ∀ c ∈ r.method, Text.isWhitespace c = false := fun c member => visible_dense (visible c member)
  by_cases inside : n ≤ r.method.length
  · have taken : (start r).take n = r.method.take n := by rw [start, List.take_append_of_le_length inside]
    have word : r.method.take n ≠ [] := by
      rw [ne_eq, List.take_eq_nil_iff, not_or]
      exact ⟨Nat.ne_of_gt positive, method⟩
    rw [ends (by omega), List.append_nil, taken, if_pos (by omega),
      Probing.splitWhitespace_word word fun c member => dense c (List.mem_of_mem_take member)]
    rfl
  · have taken : (start r).take n = r.method ++ ' ' :: (r.target ++ [' ']).take (n - (r.method.length + 1)) := by
      obtain ⟨k, rfl⟩ := Nat.exists_eq_add_of_lt (Nat.lt_of_not_le inside)
      have split : r.method.length + k + 1 = r.method.length + (k + 1) := by omega
      have rest : r.method.length + k + 1 - (r.method.length + 1) = k := by omega
      rw [rest, split, start, List.take_length_add_append, List.take_succ_cons]
    rw [taken, List.append_assoc, List.cons_append, Probing.splitWhitespace_append method dense (by decide),
      List.getElem?_cons_succ]
    by_cases bare : n ≤ r.method.length + 1
    · rw [if_pos bare, ends (by omega), Nat.sub_eq_zero_of_le bare]
      rfl
    · rw [if_neg bare]
      obtain ⟨target, seen⟩ := target_visible r
      have compact : ∀ c ∈ r.target, Text.isWhitespace c = false := fun c member => visible_dense (seen c member)
      by_cases cut : n ≤ r.method.length + 1 + r.target.length
      · have short : n - (r.method.length + 1) ≤ r.target.length := by omega
        have word : r.target.take (n - (r.method.length + 1)) ≠ [] := by
          rw [ne_eq, List.take_eq_nil_iff, not_or]
          exact ⟨by omega, target⟩
        rw [ends (by omega), List.append_nil, List.take_append_of_le_length short,
          Probing.splitWhitespace_word word fun c member => compact c (List.mem_of_mem_take member)]
        rfl
      · have whole : (r.target ++ [' ']).length ≤ n - (r.method.length + 1) := by
          simp only [List.length_append, List.length_cons, List.length_nil]
          omega
        have full : r.target.length ≤ n - (r.method.length + 1) := by omega
        rw [List.take_of_length_le whole, List.take_of_length_le full, List.append_assoc, List.singleton_append,
          Probing.splitWhitespace_append target compact (by decide)]
        rfl

/-- The path that is found when this many bytes have arrived. -/
theorem requestPath_take (n : Nat) :
    requestPath (Text.decodeLossy ((Text.asBytes (Messages.writeRequest r)).take n)) =
      if n ≤ r.method.length + 1 then "/".toList else r.target.take (n - (r.method.length + 1)) := by
  obtain ⟨rest, split⟩ := written r
  have plain := start_chars r
  by_cases zero : n = 0
  · subst zero
    rw [List.take_zero, if_pos (Nat.zero_le _)]
    rfl
  have positive : 0 < n := Nat.pos_of_ne_zero zero
  have ascii : ∀ c ∈ start r, c.toNat < 128 := fun c member => (plain c member).1
  rw [split, Probing.take_ascii ascii, Probing.decodeLossy_ascii fun c member => ascii c (List.mem_of_mem_take member)]
  have filled : (start r).take n ≠ [] := by
    rw [ne_eq, List.take_eq_nil_iff, not_or]
    exact ⟨zero, by simp [start]⟩
  obtain ⟨more, bare, line⟩ := firstLine_append (fun c member => (plain c (List.mem_of_mem_take member)).2) filled
    (Text.decodeLossy (rest.take (n - (start r).length)))
  have ends : n ≤ (start r).length → more = [] := by
    intro short
    refine bare ?_
    rw [Nat.sub_eq_zero_of_le short]
    rfl
  rw [requestPath, line, Option.bind_some, words_start r positive ends]
  split <;> rfl

/-- A request asks for `/healthz` when that much of its target is in the first 1024 bytes and
    has arrived. -/
theorem isHealthz_iff (n : Nat) : isHealthz ((Text.asBytes (Messages.writeRequest r)).take n) = true ↔
    healthzPath <+: r.target ∧ r.method.length + 9 ≤ min n 1024 := by
  have length : healthzPath.length = 8 := rfl
  rw [isHealthz, List.take_take, requestPath_take, List.isPrefixOf_iff_prefix, Nat.min_comm]
  by_cases bare : min n 1024 ≤ r.method.length + 1
  · rw [if_pos bare]
    have other : ¬ healthzPath <+: "/".toList := by decide
    exact ⟨fun found => absurd found other, fun ⟨_, enough⟩ => by omega⟩
  · rw [if_neg bare, List.prefix_take_iff, length]
    refine and_congr_right fun _ => ?_
    omega

end

/-! ## What is answered -/

/-- Whoever sends these bytes first, while the metrics are these, is answered this text. -/
def Answers (first metrics : List UInt8) (text : String) : Prop :=
  ∃ trace, Runs serveScrape (⟨.read 2000, some first⟩ :: (trace ++ [⟨.write 5000 text, ()⟩])) (.ret ()) ∧
    ∀ answer, ⟨.gather, answer⟩ ∈ trace → answer = .ok metrics

theorem answers_iff {first : List UInt8} (arrived : first ≠ []) (metrics : List UInt8) (text : String) :
    Answers first metrics text ↔ text = if isHealthz first then healthzText else metricsText metrics := by
  unfold Answers serveScrape
  simp only [Prog.call_bind, Prog.runs_cons, if_neg arrived]
  by_cases asked : isHealthz first = true
  · simp only [if_pos asked, Prog.runs_call]
    constructor
    · rintro ⟨trace, same, -⟩
      obtain ⟨-, last⟩ | ⟨-, empty⟩ := List.append_eq_singleton_iff.mp same
      · cases last
        rfl
      · cases empty
    · rintro rfl
      exact ⟨[], rfl, by simp⟩
  · simp only [if_neg asked]
    constructor
    · rintro ⟨trace, run, gathered⟩
      obtain ⟨empty, -⟩ | ⟨r, rest, same, later⟩ := Prog.runs_act run
      · simp at empty
      · cases trace with
        | nil => cases same
        | cons e trace =>
          obtain ⟨rfl, rfl⟩ := List.cons.inj same
          rw [gathered r List.mem_cons_self] at later
          obtain ⟨-, last⟩ | ⟨-, empty⟩ := List.append_eq_singleton_iff.mp (Prog.runs_call.mp later)
          · cases last
            rfl
          · cases empty
    · rintro rfl
      exact ⟨[⟨.gather, .ok metrics⟩], Prog.runs_cons.mpr (Prog.runs_call.mpr rfl), by simp⟩

/-! ## The responses -/

def contentTypeField (value : List Char) (legal : Messages.isFieldValue value = true) : Messages.Field where
  name := "Content-Type".toList
  value := value
  token := by decide
  legal := legal

theorem decimal_value (n : Nat) :
    Messages.isFieldValue (Text.decimal n) = true ∧ Responses.isAscii (Text.decimal n) = true := by
  have range : ∀ c ∈ Text.decimal n, 33 ≤ c.toNat ∧ c.toNat < 127 := by
    intro c member
    have digit := Responses.decimal_digit c member
    simp only [Char.isDigit, Bool.and_eq_true, decide_eq_true_eq] at digit
    have low : 48 ≤ c.toNat := digit.1
    have high : c.toNat ≤ 57 := digit.2
    omega
  refine ⟨Messages.visible_value range, List.all_eq_true.mpr fun c member => ?_⟩
  have visible := range c member
  exact decide_eq_true (by omega)

def contentLengthField (length : Nat) : Messages.Field where
  name := "Content-Length".toList
  value := Text.decimal length
  token := by decide
  legal := (decimal_value length).1

theorem fields_ascii {contentType : List Char} (legal : Messages.isFieldValue contentType = true)
    (ascii : Responses.isAscii contentType = true) (length : Nat) :
    ([contentTypeField contentType legal, contentLengthField length, Completeness.closeField].all
      fun f => Responses.isAscii f.value) = true := by
  have closes : Responses.isAscii "close".toList = true := by decide
  refine List.all_eq_true.mpr fun f member => ?_
  simp only [List.mem_cons, List.not_mem_nil, or_false] at member
  rcases member with rfl | rfl | rfl
  · exact ascii
  · exact (decimal_value length).2
  · exact closes

/-- The names, as a reader compares them with the two that frame a body. -/
theorem fields_named (contentType : List Char) (legal : Messages.isFieldValue contentType = true) (length : Nat) :
    ((contentTypeField contentType legal).isNamed "content-length" = false ∧
      (contentLengthField length).isNamed "content-length" = true ∧
      Completeness.closeField.isNamed "content-length" = false) ∧
    ((contentTypeField contentType legal).isNamed "transfer-encoding" = false ∧
      (contentLengthField length).isNamed "transfer-encoding" = false ∧
      Completeness.closeField.isNamed "transfer-encoding" = false) := by
  have sized : Text.eqIgnoreAsciiCase "Content-Type".toList "content-length".toList = false ∧
      Text.eqIgnoreAsciiCase "Content-Length".toList "content-length".toList = true ∧
      Text.eqIgnoreAsciiCase "Connection".toList "content-length".toList = false := by decide
  have coded : Text.eqIgnoreAsciiCase "Content-Type".toList "transfer-encoding".toList = false ∧
      Text.eqIgnoreAsciiCase "Content-Length".toList "transfer-encoding".toList = false ∧
      Text.eqIgnoreAsciiCase "Connection".toList "transfer-encoding".toList = false := by decide
  exact ⟨sized, coded⟩

theorem fields_sized (contentType : List Char) (legal : Messages.isFieldValue contentType = true) (length : Nat) :
    Responses.isSized [contentTypeField contentType legal, contentLengthField length, Completeness.closeField] length =
      true := by
  obtain ⟨⟨typed, counted, closes⟩, typed', counted', closes'⟩ := fields_named contentType legal length
  have value : (contentLengthField length).value = Text.decimal length := rfl
  simp only [Responses.isSized, List.filter_cons, List.filter_nil, typed, counted, closes, typed', counted', closes',
    value, List.all_cons, List.all_nil, if_true, if_false, Bool.false_eq_true, Bool.not_false, Bool.and_self, decide_true]

/-- The response of this type with this body. -/
def reply (contentType : List Char) (legal : Messages.isFieldValue contentType = true)
    (ascii : Responses.isAscii contentType = true) (body : List UInt8) : Responses.Response where
  status := 200
  reason := ['O', 'K']
  fields := [contentTypeField contentType legal, contentLengthField body.length, Completeness.closeField]
  body := body
  code := by decide
  legal := by decide
  ascii := fields_ascii legal ascii body.length
  sized := fields_sized contentType legal body.length

/-- The text up to the body is the head of that response. -/
theorem responseText_head {contentType : String} (legal : Messages.isFieldValue contentType.toList = true)
    (ascii : Responses.isAscii contentType.toList = true) (body : String) :
    (responseText "200 OK" contentType body).toList =
      Responses.writeHead (reply contentType.toList legal ascii (Text.asBytes body.toList)) ++ body.toList := by
  have head : Responses.writeHead (reply contentType.toList legal ascii (Text.asBytes body.toList)) =
      "HTTP/1.1 200 OK\r\n".toList ++ ("Content-Type: ".toList ++ contentType.toList ++ "\r\n".toList ++
        ("Content-Length: ".toList ++ Text.decimal (Text.asBytes body.toList).length ++ "\r\n".toList ++
          "Connection: close\r\n\r\n".toList)) := by
    have digits : Text.decimal 200 = ['2', '0', '0'] := by decide
    have first : Messages.writeLine (Responses.version ++ (Text.decimal 200 ++ ' ' :: ['O', 'K'])) =
        "HTTP/1.1 200 OK\r\n".toList := by
      rw [digits]
      rfl
    have last : Messages.writeLine (Messages.writeField Completeness.closeField) ++ Messages.writeLine [] =
        "Connection: close\r\n\r\n".toList := rfl
    have fields : (reply contentType.toList legal ascii (Text.asBytes body.toList)).fields =
        [contentTypeField contentType.toList legal, contentLengthField (Text.asBytes body.toList).length,
          Completeness.closeField] := rfl
    have line : Responses.statusLine (reply contentType.toList legal ascii (Text.asBytes body.toList)) =
        Responses.version ++ (Text.decimal 200 ++ ' ' :: ['O', 'K']) := rfl
    have typed : Messages.writeLine (Messages.writeField (contentTypeField contentType.toList legal)) =
        "Content-Type: ".toList ++ contentType.toList ++ "\r\n".toList := rfl
    have sized : Messages.writeLine (Messages.writeField (contentLengthField (Text.asBytes body.toList).length)) =
        "Content-Length: ".toList ++ Text.decimal (Text.asBytes body.toList).length ++ "\r\n".toList := rfl
    rw [← first, ← last, Responses.writeHead, Responses.headLines, fields, line]
    simp only [List.flatMap_cons, List.map_cons, List.map_nil, List.flatMap_nil, List.append_nil, typed, sized,
      List.append_assoc]
  rw [head]
  simp [responseText, Text.decimal, ToString.toString, Nat.repr]

theorem responseText_reply {contentType : String} (legal : Messages.isFieldValue contentType.toList = true)
    (ascii : Responses.isAscii contentType.toList = true) (body : String) :
    Text.asBytes (responseText "200 OK" contentType body).toList =
      Responses.writeResponse (reply contentType.toList legal ascii (Text.asBytes body.toList)) := by
  rw [responseText_head legal ascii body, Responses.bytes_append]
  rfl

/-- Enough of the request arrived first for a check of the health: the method, the space
    behind it and eight characters of the target, within the buffer. -/
def Asked (r : Messages.Request) (arrived : Nat) : Prop :=
  healthzPath <+: r.target ∧ r.method.length + 9 ≤ min arrived 1024

instance (r : Messages.Request) (arrived : Nat) : Decidable (Asked r arrived) := inferInstanceAs (Decidable (_ ∧ _))

theorem isHealthz_first (r : Messages.Request) (delivery : Delivery (Text.asBytes (Messages.writeRequest r))) :
    isHealthz delivery.first = true ↔ Asked r delivery.first.length := by
  have whole := isHealthz_iff r delivery.first.length
  rwa [← Segments.first_take delivery] at whole

/-- Whatever bytes arrive first, they are answered one text, which is one whole response: a
    reader finds its end by the length alone and reads back the status 200 with `ok`, where the
    second word of the first line begins with `/healthz`, or else with the metrics. Of a
    written request that much is found when `/healthz` was asked for in what arrived first. -/
theorem scrape_exact (first metrics : List UInt8) (arrived : first ≠ []) :
    (∃ text resp, (∀ other, Answers first metrics other ↔ other = text) ∧
      (∀ behind, Responses.readResponse (Text.asBytes text.toList ++ behind) = some (resp, behind)) ∧
      resp.status = 200 ∧ resp.body = if isHealthz first then Text.asBytes "ok".toList
        else Text.asBytes (Text.decodeLossy metrics)) ∧
    ∀ r (delivery : Delivery (Text.asBytes (Messages.writeRequest r))), delivery.first = first →
      (isHealthz first = true ↔ Asked r first.length) := by
  have answered := answers_iff arrived metrics
  refine ⟨?_, ?_⟩
  · by_cases asked : isHealthz first = true
    · refine ⟨healthzText, reply "text/plain".toList (by decide) (by decide) (Text.asBytes "ok".toList), ?_, ?_, rfl, ?_⟩
      · intro other
        rw [answered, if_pos asked]
      · intro behind
        rw [healthzText, responseText_reply, Responses.readResponse_written]
      · rw [if_pos asked]
        rfl
    · refine ⟨metricsText metrics, reply "text/plain; version=0.0.4".toList (by decide) (by decide)
        (Text.asBytes (Text.decodeLossy metrics)), ?_, ?_, rfl, ?_⟩
      · intro other
        rw [answered, if_neg asked]
      · intro behind
        have body : (String.ofList (Text.decodeLossy metrics)).toList = Text.decodeLossy metrics := String.toList_ofList
        rw [metricsText, responseText_reply (by decide) (by decide), body, Responses.readResponse_written]
      · rw [if_neg asked]
        rfl
  · rintro r delivery rfl
    exact isHealthz_first r delivery

/-- Bytes that are no request are answered the metrics. -/
theorem scrape_exact_malformed :
    ∃ text resp, Answers [0xff, 0x0a] [0x31] text ∧
      Responses.readResponse (Text.asBytes text.toList) = some (resp, []) ∧ resp.status = 200 ∧ resp.body = [0x31] := by
  obtain ⟨⟨text, resp, answers, reads, status, body⟩, -⟩ := scrape_exact [0xff, 0x0a] [0x31] (by decide)
  have other : isHealthz [0xff, 0x0a] = false := by decide +kernel
  have metrics : Text.asBytes (Text.decodeLossy [0x31]) = [0x31] := by decide +kernel
  rw [other, metrics] at body
  exact ⟨text, resp, (answers text).mpr rfl, by simpa using reads [], status, body⟩

end Scraping
end Torana
