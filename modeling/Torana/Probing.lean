import Torana.Addresses
import Torana.Segments

/-!
What a probe makes of a response. It reads once and looks for a number behind the first white
space of what has arrived: of a status line that is cut it reads the digits that are there, and
none where the cut is in front of them.
-/
namespace Torana
open Proxy (upstreamHostPort)
open Prog (Runs)
open Segments (Delivery)

namespace Probing

/-! ## Verdicts -/

/-- A probe whose first read returns these bytes in time ends with this verdict. -/
def Returns (addr path : String) (timeout : Config.Duration) (first : List UInt8) (healthy : Bool) : Prop :=
  ∃ host port text, Runs (Health.probeOnce addr path timeout) [⟨.exchange timeout host port text, some first⟩]
    (.ret healthy)

/-- The number that a probe finds in the bytes, or 0. -/
def statusIn (bytes : List UInt8) : Nat := Health.probeStatus (Text.decodeLossy (bytes.take 512))

def looksHealthy (bytes : List UInt8) : Bool := statusIn bytes ≠ 0 && statusIn bytes < 500

/-- The second word of the bytes is a number below 500, other than 0. -/
def HealthyWord (bytes : List UInt8) : Prop :=
  ∃ word value, (Text.splitWhitespace (Text.decodeLossy bytes))[1]? = some word ∧ Text.parseUint 16 word = .ok value ∧
    0 < value ∧ value < 500

theorem looksHealthy_iff {bytes : List UInt8} :
    looksHealthy bytes = true ↔ 0 < statusIn bytes ∧ statusIn bytes < 500 := by
  simp only [looksHealthy, Bool.and_eq_true, decide_eq_true_eq, Nat.pos_iff_ne_zero]

theorem looksHealthy_word {bytes : List UInt8} : looksHealthy bytes = true ↔ HealthyWord (bytes.take 512) := by
  rw [looksHealthy_iff, statusIn, Health.probeStatus, HealthyWord]
  cases second : (Text.splitWhitespace (Text.decodeLossy (bytes.take 512)))[1]? with
  | none => simp
  | some word =>
    cases parsed : Text.parseUint 16 word with
    | error e => simp [parsed, Except.toOption]
    | ok value => simp [parsed, Except.toOption]

theorem returns_iff {addr host : String} {port : Nat} (split : upstreamHostPort addr = .ok (host, port)) (path : String)
    (timeout : Config.Duration) (first : List UInt8) (healthy : Bool) :
    Returns addr path timeout first healthy ↔ healthy = looksHealthy first := by
  unfold Returns Health.probeOnce
  rw [split]
  simp only [Prog.call_bind]
  constructor
  · rintro ⟨_, _, _, run⟩
    rcases Prog.runs_act run with ⟨unsent, -⟩ | ⟨r, rest, same, later⟩
    · cases unsent
    · cases same
      exact Prog.ret.inj (Prog.runs_ret.mp later).2
  · rintro rfl
    exact ⟨host, port, Completeness.probeText path host, Prog.runs_cons.mpr (.nil _)⟩

/-! ## Words -/

theorem splitWhitespace_word {word : List Char} (filled : word ≠ []) (dense : ∀ c ∈ word, Text.isWhitespace c = false) :
    Text.splitWhitespace word = [word] := by
  rw [Text.splitWhitespace, List.splitOnP_eq_singleton dense, List.filter_cons_of_pos (by simpa using filled)]
  rfl

/-- White space ends a word. -/
theorem splitWhitespace_append {word : List Char} (filled : word ≠ []) (dense : ∀ c ∈ word, Text.isWhitespace c = false)
    {c : Char} (white : Text.isWhitespace c = true) (rest : List Char) :
    Text.splitWhitespace (word ++ c :: rest) = word :: Text.splitWhitespace rest := by
  have first := splitWhitespace_word filled dense
  unfold Text.splitWhitespace at first ⊢
  rw [List.splitOnP_append_cons word rest white, List.filter_append, first]
  rfl

theorem asBytes_cons {c : Char} (small : c.toNat < 128) (rest : List Char) :
    Text.asBytes (c :: rest) = UInt8.ofNat c.toNat :: Text.asBytes rest := by
  rw [Text.asBytes, List.flatMap_cons, Http.utf8_ascii small]
  rfl

/-- ASCII bytes are decoded as they stand. -/
theorem decodeLossy_ascii {text : List Char} (ascii : ∀ c ∈ text, c.toNat < 128) (rest : List UInt8) :
    Text.decodeLossy (Text.asBytes text ++ rest) = text ++ Text.decodeLossy rest := by
  induction text with
  | nil => rfl
  | cons c behind ih =>
    have small : c.toNat < 128 := ascii c List.mem_cons_self
    have value : (UInt8.ofNat c.toNat).toNat = c.toNat := by
      rw [UInt8.toNat_ofNat']
      omega
    have plain : Text.nextByte none c.toNat = ([c], none) := by
      rw [Text.nextByte, Text.beginChar, if_pos small, Char.ofNat_toNat]
    rw [asBytes_cons small, List.cons_append, Text.decodeLossy, Text.decodeLossyFrom, value, plain]
    exact congrArg (c :: ·) (ih fun d member => ascii d (List.mem_cons_of_mem _ member))

theorem take_ascii {text : List Char} (ascii : ∀ c ∈ text, c.toNat < 128) (rest : List UInt8) (n : Nat) :
    (Text.asBytes text ++ rest).take n = Text.asBytes (text.take n) ++ rest.take (n - text.length) := by
  induction text generalizing n with
  | nil =>
    rw [List.take_nil]
    rfl
  | cons c behind ih =>
    have small : c.toNat < 128 := ascii c List.mem_cons_self
    cases n with
    | zero =>
      rw [List.take_zero, List.take_zero, Nat.zero_sub, List.take_zero]
      rfl
    | succ n =>
      rw [asBytes_cons small, List.cons_append, List.take_succ_cons, List.take_succ_cons, asBytes_cons small,
        List.cons_append, ih fun d member => ascii d (List.mem_cons_of_mem _ member), List.length_cons,
        Nat.add_sub_add_right]

/-! ## Responses -/

/-- A response of HTTP/1.x with a status line of three digits. -/
structure Response where
  minor : Nat
  digit : minor < 10
  status : Nat
  code : 100 ≤ status ∧ status < 1000
  reason : List UInt8
  legal : reason.all Http.isLegalByte = true
  rest : List UInt8

def statusDigits (status : Nat) : List Char :=
  [(status / 100).digitChar, (status / 10 % 10).digitChar, (status % 10).digitChar]

def protocol (r : Response) : List Char := "HTTP/1.".toList ++ [r.minor.digitChar]

/-- The status line and what follows it. -/
def bytes (r : Response) : List UInt8 :=
  Text.asBytes (protocol r ++ ' ' :: (statusDigits r.status ++ [' '])) ++ (r.reason ++ 13 :: 10 :: r.rest)

theorem digitChar_plain {d : Nat} (small : d < 10) :
    d.digitChar.isDigit = true ∧ d.digitChar.toNat < 128 ∧ Text.isWhitespace d.digitChar = false := by
  have all :
      ∀ d < 10, d.digitChar.isDigit = true ∧ d.digitChar.toNat < 128 ∧ Text.isWhitespace d.digitChar = false := by
    decide
  exact all d small

theorem statusDigits_plain {status : Nat} (code : status < 1000) : ∀ c ∈ statusDigits status,
    c.isDigit = true ∧ c.toNat < 128 ∧ Text.isWhitespace c = false := by
  intro c member
  simp only [statusDigits, List.mem_cons, List.not_mem_nil, or_false] at member
  rcases member with rfl | rfl | rfl <;> exact digitChar_plain (by omega)

theorem protocol_plain (r : Response) : ∀ c ∈ protocol r, c.toNat < 128 ∧ Text.isWhitespace c = false := by
  have name : ∀ c ∈ "HTTP/1.".toList, c.toNat < 128 ∧ Text.isWhitespace c = false :=
    List.forall_iff_forall_mem.mp (by decide)
  intro c member
  rcases List.mem_append.mp member with front | minor
  · exact name c front
  · rw [List.mem_singleton.mp minor]
    exact (digitChar_plain r.digit).2

/-- The digits that have arrived are the leading ones of the status. -/
theorem parse_statusDigits {status : Nat} (code : status < 1000) {n : Nat} (several : 0 < n) :
    Text.parseUint 16 ((statusDigits status).take n) = .ok (status / 10 ^ (3 - n)) := by
  have filled : (statusDigits status).take n ≠ [] := by
    rw [ne_eq, List.take_eq_nil_iff, not_or]
    exact ⟨Nat.ne_of_gt several, List.cons_ne_nil _ _⟩
  have decimal : ((statusDigits status).take n).all Char.isDigit = true :=
    List.all_eq_true.mpr fun c member => (statusDigits_plain code c (List.mem_of_mem_take member)).1
  have value : Addresses.portValue ((statusDigits status).take n) = status / 10 ^ (3 - n) := by
    have hundreds : status / 100 < 10 := by omega
    have tens : status / 10 % 10 < 10 := by omega
    have ones : status % 10 < 10 := by omega
    unfold Addresses.portValue statusDigits
    match n, several with
    | 1, _ =>
      rw [List.take_succ_cons, List.take_zero, Nat.ofDigitChars_cons_digitChar_of_lt_ten hundreds, Nat.ofDigitChars_nil]
      omega
    | 2, _ =>
      rw [List.take_succ_cons, List.take_succ_cons, List.take_zero, Nat.ofDigitChars_cons_digitChar_of_lt_ten hundreds,
        Nat.ofDigitChars_cons_digitChar_of_lt_ten tens, Nat.ofDigitChars_nil]
      omega
    | n + 3, _ =>
      rw [List.take_of_length_le (by simp), Nat.ofDigitChars_cons_digitChar_of_lt_ten hundreds,
        Nat.ofDigitChars_cons_digitChar_of_lt_ten tens, Nat.ofDigitChars_cons_digitChar_of_lt_ten ones,
        Nat.ofDigitChars_nil, Nat.sub_eq_zero_of_le (Nat.le_add_left 3 n)]
      omega
  have small : Addresses.portValue ((statusDigits status).take n) < 65536 := by
    rw [value]
    exact Nat.lt_of_le_of_lt (Nat.div_le_self _ _) (by omega)
  rw [Addresses.parsePort_made ⟨_, filled, decimal, small⟩, value]

theorem start_ascii (r : Response) : ∀ c ∈ protocol r ++ ' ' :: (statusDigits r.status ++ [' ']), c.toNat < 128 := by
  intro c member
  simp only [List.mem_append, List.mem_cons, List.not_mem_nil, or_false] at member
  rcases member with front | rfl | digit | rfl
  · exact (protocol_plain r c front).1
  · decide
  · exact (statusDigits_plain r.code.2 c digit).2.1
  · decide

theorem protocol_length (r : Response) : (protocol r).length = 8 := rfl

/-- What a beginning of a response decodes to: the status line up to the cut, and what lies behind it. -/
theorem decode_take (r : Response) (n : Nat) : ∃ behind, (n ≤ 13 → behind = []) ∧
    Text.decodeLossy ((bytes r).take n) =
      (protocol r ++ ' ' :: (statusDigits r.status ++ [' '])).take n ++ behind := by
  have ascii := start_ascii r
  refine ⟨Text.decodeLossy ((r.reason ++ 13 :: 10 :: r.rest).take (n - 13)), ?_, ?_⟩
  · intro short
    rw [Nat.sub_eq_zero_of_le short, List.take_zero]
    rfl
  · rw [bytes, take_ascii ascii, decodeLossy_ascii fun c member => ascii c (List.mem_of_mem_take member)]
    rfl

/-- One word has no second one. -/
theorem probeStatus_dense {text : List Char} (dense : ∀ c ∈ text, Text.isWhitespace c = false) :
    Health.probeStatus text = 0 := by
  by_cases empty : text = []
  · subst empty
    decide
  · rw [Health.probeStatus, splitWhitespace_word empty dense]
    rfl

theorem protocol_words (r : Response) (rest : List Char) :
    Text.splitWhitespace (protocol r ++ ' ' :: rest) = protocol r :: Text.splitWhitespace rest :=
  splitWhitespace_append (List.cons_ne_nil _ _) (fun c member => (protocol_plain r c member).2) (by decide) rest

/-- The digits that have arrived end with the text or with the space behind them. -/
theorem probeStatus_digits (r : Response) {n : Nat} (positive : 0 < n) {behind : List Char}
    (ends : behind = [] ∨ behind.head? = some ' ') :
    Health.probeStatus (protocol r ++ ' ' :: ((statusDigits r.status).take n ++ behind)) = r.status / 10 ^ (3 - n) := by
  have filled : (statusDigits r.status).take n ≠ [] := by
    rw [ne_eq, List.take_eq_nil_iff, not_or]
    exact ⟨Nat.ne_of_gt positive, List.cons_ne_nil _ _⟩
  have dense : ∀ c ∈ (statusDigits r.status).take n, Text.isWhitespace c = false :=
    fun c member => (statusDigits_plain r.code.2 c (List.mem_of_mem_take member)).2.2
  have second : (Text.splitWhitespace ((statusDigits r.status).take n ++ behind))[0]? =
      some ((statusDigits r.status).take n) := by
    rcases ends with rfl | space
    · rw [List.append_nil, splitWhitespace_word filled dense]
      rfl
    · rw [List.eq_cons_of_mem_head? space, splitWhitespace_append filled dense (by decide)]
      rfl
  rw [Health.probeStatus, protocol_words, List.getElem?_cons_succ, second, Option.bind_some,
    parse_statusDigits r.code.2 positive]
  rfl

/-- What a probe finds of the status when it reads this many bytes. -/
theorem probeStatus_take (r : Response) (n : Nat) : Health.probeStatus (Text.decodeLossy ((bytes r).take n)) =
    if n ≤ 9 then 0 else r.status / 10 ^ (12 - n) := by
  obtain ⟨behind, short, decoded⟩ := decode_take r n
  rw [decoded]
  by_cases before : n ≤ 8
  · have front : (protocol r ++ ' ' :: (statusDigits r.status ++ [' '])).take n = (protocol r).take n :=
      List.take_append_of_le_length before
    rw [if_pos (by omega), short (by omega), List.append_nil, front]
    exact probeStatus_dense fun c member => (protocol_plain r c (List.mem_of_mem_take member)).2
  · obtain ⟨m, rfl⟩ : ∃ m, n = 8 + (m + 1) := ⟨n - 9, by omega⟩
    have front : (protocol r ++ ' ' :: (statusDigits r.status ++ [' '])).take (8 + (m + 1)) =
        protocol r ++ ' ' :: ((statusDigits r.status).take m ++ [' '].take (m - 3)) := by
      rw [← protocol_length r, List.take_length_add_append, List.take_succ_cons, List.take_append]
      rfl
    rw [front, List.append_assoc, List.cons_append, List.append_assoc]
    cases m with
    | zero =>
      rw [short (by decide), if_pos (by decide), Health.probeStatus, List.take_zero, List.nil_append, protocol_words]
      rfl
    | succ m =>
      have exponent : 12 - (8 + (m + 1 + 1)) = 3 - (m + 1) := by omega
      rw [if_neg (by omega), exponent]
      refine probeStatus_digits r (Nat.succ_pos m) ?_
      by_cases inside : m + 1 ≤ 3
      · rw [Nat.sub_eq_zero_of_le inside, short (by omega)]
        exact .inl rfl
      · have spaced : [' '].take (m + 1 - 3) = [' '] := List.take_of_length_le (by simp; omega)
        rw [spaced]
        exact .inr rfl

/-! ## Every cut -/

/-- This many bytes tell whether a response with this status is healthy: all digits, or none when
    it is not, or some when it is. -/
def Telling (status n : Nat) : Prop := 12 ≤ n ∨ (n ≤ 9 ∧ 500 ≤ status) ∨ (10 ≤ n ∧ n ≤ 11 ∧ status < 500)

theorem statusIn_take (r : Response) (n : Nat) :
    statusIn ((bytes r).take n) = if n ≤ 9 then 0 else r.status / 10 ^ (12 - n) := by
  rw [statusIn, List.take_take, probeStatus_take]
  by_cases inside : n ≤ 512
  · rw [Nat.min_eq_right inside]
  · have whole : 12 - min 512 n = 12 - n := by omega
    rw [if_neg (by omega), if_neg (by omega), whole]

theorem looksHealthy_take (r : Response) (n : Nat) :
    looksHealthy ((bytes r).take n) = true ↔ 10 ≤ n ∧ (n ≤ 11 ∨ r.status < 500) := by
  obtain ⟨above, below⟩ := r.code
  rw [looksHealthy_iff, statusIn_take]
  by_cases before : n ≤ 9
  · rw [if_pos before]
    omega
  · rw [if_neg before]
    -- Of a cut status the leading digits have arrived, which are a small number.
    by_cases one : n = 10
    · subst one
      omega
    · by_cases two : n = 11
      · subst two
        omega
      · have whole : 12 - n = 0 := by omega
        rw [whole, Nat.pow_zero, Nat.div_one]
        omega

/-- One byte is one character. -/
theorem decodeLossy_single (b : UInt8) : ∃ c, Text.decodeLossy [b] = [c] := by
  rw [Text.decodeLossy, Text.decodeLossyFrom, Text.nextByte]
  unfold Text.beginChar
  repeat' split
  all_goals exact ⟨_, rfl⟩

theorem probeStatus_single (c : Char) : Health.probeStatus [c] = 0 := by
  by_cases white : Text.isWhitespace c = true
  · have empty : Text.splitWhitespace [c] = [] := by
      rw [Text.splitWhitespace, List.splitOnP_cons_eq_if_modifyHead, if_pos white]
      rfl
    rw [Health.probeStatus, empty]
    rfl
  · refine probeStatus_dense fun d member => ?_
    rw [List.mem_singleton.mp member]
    exact Bool.eq_false_iff.mpr white

/-- The first byte of a stream says nothing. -/
theorem looksHealthy_first (stream : List UInt8) : looksHealthy (stream.take 1) = false := by
  cases stream with
  | nil => decide
  | cons b rest =>
    obtain ⟨c, decoded⟩ := decodeLossy_single b
    have status : statusIn ((b :: rest).take 1) = 0 := by
      rw [statusIn, List.take_take, Nat.min_eq_right (by decide), List.take_succ_cons, List.take_zero, decoded,
        probeStatus_single]
    rw [looksHealthy, status]
    rfl

/-- A probe of a response that can be cut anywhere is right exactly when its first read tells the
    status; and every cut of a stream leads to one verdict exactly when no beginning of it has a healthy word. -/
theorem verdict_iff {addr host : String} {port : Nat} (split : upstreamHostPort addr = .ok (host, port)) (path : String)
    (timeout : Config.Duration) :
    (∀ (r : Response) (delivery : Delivery (bytes r)) (healthy : Bool),
      Returns addr path timeout delivery.first healthy →
        ((healthy = true ↔ r.status < 500) ↔ Telling r.status delivery.first.length)) ∧
    ∀ stream : List UInt8, (∀ (left right : Delivery stream) (a b : Bool), Returns addr path timeout left.first a →
        Returns addr path timeout right.first b → a = b) ↔
      ∀ n, n ≤ 512 → ¬HealthyWord (stream.take n) := by
  refine ⟨?_, ?_⟩
  · intro r delivery healthy returns
    rw [returns_iff split] at returns
    subst returns
    have first := Segments.first_take delivery
    generalize delivery.first.length = n at first ⊢
    rw [first, looksHealthy_take, Telling]
    omega
  · intro stream
    have verdicts : (∀ (left right : Delivery stream) (a b : Bool), Returns addr path timeout left.first a →
        Returns addr path timeout right.first b → a = b) ↔
        ∀ left right : Delivery stream, looksHealthy left.first = looksHealthy right.first := by
      simp only [returns_iff split, forall_eq_apply_imp_iff, forall_eq]
    have words : (∀ n, n ≤ 512 → ¬HealthyWord (stream.take n)) ↔ ∀ n, looksHealthy (stream.take n) = false := by
      simp only [← Bool.not_eq_true, looksHealthy_word, List.take_take]
      refine ⟨fun unread n => unread _ (Nat.min_le_left 512 n), fun unread n inside => ?_⟩
      have beginning := unread n
      rwa [Nat.min_eq_right inside] at beginning
    rw [verdicts, words]
    by_cases empty : stream = []
    · subst empty
      refine ⟨fun _ n => ?_, fun _ left right => ?_⟩
      · rw [List.take_nil]
        decide
      · rw [Segments.first_take left, Segments.first_take right, List.take_nil, List.take_nil]
    · rw [Segments.decides_iff empty]
      constructor
      · intro same n
        cases n with
        | zero =>
          rw [List.take_zero]
          decide
        | succ n => rw [same (n + 1) 1 (Nat.succ_pos n) Nat.one_pos, looksHealthy_first]
      · intro unhealthy n m _ _
        rw [unhealthy n, unhealthy m]

/-! ## A status line in two pieces -/

/-- A response with this status and nothing else. -/
def answer (status : Nat) (code : 100 ≤ status ∧ status < 1000) : Response :=
  ⟨1, by decide, status, code, [], rfl, [13, 10]⟩

theorem answer_ne_nil (status : Nat) (code : 100 ≤ status ∧ status < 1000) : bytes (answer status code) ≠ [] :=
  List.cons_ne_nil _ _

theorem split_plain : upstreamHostPort "http://10.0.0.1:8080" = .ok ("10.0.0.1", 8080) := by decide

/-- The status line has arrived up to its reason. -/
theorem verdict_iff_digits : ∃ (delivery : Delivery (bytes (answer 503 (by decide)))) (healthy : Bool),
    Returns "http://10.0.0.1:8080" "/" 2000 delivery.first healthy ∧ (healthy = true ↔ 503 < 500) := by
  have twelve : 0 < 12 := by decide
  have first := Segments.cut_first (answer_ne_nil 503 (by decide)) twelve
  have returns :=
    (returns_iff split_plain "/" 2000 (Segments.cut (answer_ne_nil 503 (by decide)) twelve).first _).mpr rfl
  have telling : Telling 503 (Segments.cut (answer_ne_nil 503 (by decide)) twelve).first.length := by
    rw [first]
    exact .inl (by decide)
  exact ⟨_, _, returns, ((verdict_iff split_plain "/" 2000).1 (answer 503 (by decide)) _ _ returns).mpr telling⟩

/-- Of a response with the status 503 a probe that has got one digit makes a healthy one, and one
    that has got all of it does not. -/
theorem verdict_cut : ∃ left right : Delivery (bytes (answer 503 (by decide))),
    Returns "http://10.0.0.1:8080" "/" 2000 left.first true ∧
      Returns "http://10.0.0.1:8080" "/" 2000 right.first false := by
  have ten : 0 < 10 := by decide
  have all : 0 < 512 := by decide
  refine ⟨Segments.cut (answer_ne_nil 503 _) ten, Segments.cut (answer_ne_nil 503 _) all, ?_, ?_⟩
  · rw [returns_iff split_plain, Segments.cut_first]
    decide
  · rw [returns_iff split_plain, Segments.cut_first]
    decide

end Probing
end Torana
