import Torana.Identity

/-!
The fields by which an upstream learns where a request came from. Whatever the
client sends and the route overrides, they are set last and from what the proxy
itself knows; the chain of `x-forwarded-for` may keep what was there before, but
its last element is the client's address.
-/
namespace Torana
open Http Proxy
open Prog (Runs)

namespace Boundary
open Server Handling

/-! ## The text of an address -/

/-- The characters that addresses are written with. -/
def isAddrChar (c : Char) : Bool := isLowerHex c || c = '.' || c = ':'

theorem mem_toDigitsCore {b fuel n : Nat} {digits : List Char} {c : Char} (positive : 0 < b)
    (member : c ∈ Nat.toDigitsCore b fuel n digits) : c ∈ digits ∨ ∃ d < b, c = Nat.digitChar d := by
  induction fuel generalizing n digits with
  | zero => exact .inl member
  | succ fuel ih =>
    have digit : n % b < b := Nat.mod_lt n positive
    rw [Nat.toDigitsCore] at member
    split at member
    · rcases List.mem_cons.mp member with rfl | earlier
      · exact .inr ⟨_, digit, rfl⟩
      · exact .inl earlier
    · rcases ih member with here | small
      · rcases List.mem_cons.mp here with rfl | earlier
        · exact .inr ⟨_, digit, rfl⟩
        · exact .inl earlier
      · exact .inr small

theorem toDigits_chars {b n : Nat} {c : Char} (positive : 0 < b) (small : b ≤ 16) (member : c ∈ Nat.toDigits b n) :
    isAddrChar c = true := by
  rcases mem_toDigitsCore positive member with absent | ⟨d, below, rfl⟩
  · cases absent
  · have all : ∀ d < 16, isAddrChar (Nat.digitChar d) = true := by decide
    exact all d (by omega)

theorem mem_intercalate {α : Type} {sep : List α} {parts : List (List α)} {x : α}
    (member : x ∈ sep.intercalate parts) : x ∈ sep ∨ ∃ part ∈ parts, x ∈ part := by
  induction parts with
  | nil => cases member
  | cons part rest ih =>
    by_cases last : rest = []
    · subst last
      rw [List.intercalate_singleton] at member
      exact .inr ⟨part, List.mem_cons_self, member⟩
    · rw [List.intercalate_cons_of_ne_nil last] at member
      rcases List.mem_append.mp member with here | behind
      · rcases List.mem_append.mp here with first | between
        · exact .inr ⟨part, List.mem_cons_self, first⟩
        · exact .inl between
      · rcases ih behind with between | ⟨other, listed, inside⟩
        · exact .inl between
        · exact .inr ⟨other, List.mem_cons_of_mem _ listed, inside⟩

theorem writeIpv4Addr_chars {a b c d : UInt8} {ch : Char} (member : ch ∈ Net.writeIpv4Addr a b c d) :
    isAddrChar ch = true := by
  rcases mem_intercalate member with dot | ⟨part, listed, inside⟩
  · rw [List.mem_singleton.mp dot]
    decide
  · obtain ⟨octet, -, rfl⟩ := List.mem_map.mp listed
    exact toDigits_chars (by decide) (by decide) inside

theorem writeSegments_chars {segments : List UInt16} {c : Char} (member : c ∈ Net.writeSegments segments) :
    isAddrChar c = true := by
  rcases mem_intercalate member with colon | ⟨part, listed, inside⟩
  · rw [List.mem_singleton.mp colon]
    decide
  · obtain ⟨segment, -, rfl⟩ := List.mem_map.mp listed
    exact toDigits_chars (by decide) (by decide) inside

theorem toText_chars (ip : Net.IpAddr) : ∀ c ∈ ip.toText.toList, isAddrChar c = true := by
  intro c member
  have mapped : ∀ c ∈ "::ffff:".toList, isAddrChar c = true := List.forall_iff_forall_mem.mp (by decide)
  have shortened : ∀ c ∈ "::".toList, isAddrChar c = true := List.forall_iff_forall_mem.mp (by decide)
  unfold Net.IpAddr.toText at member
  split at member
  · rw [String.toList_ofList] at member
    exact writeIpv4Addr_chars member
  · split at member
    · rw [String.toList_ofList] at member
      exact (List.mem_append.mp member).elim (mapped c) writeIpv4Addr_chars
    · simp only at member
      split at member
      · rw [String.toList_ofList] at member
        rcases List.mem_append.mp member with before | after
        · exact (List.mem_append.mp before).elim writeSegments_chars (shortened c)
        · exact writeSegments_chars after
      · rw [String.toList_ofList] at member
        exact writeSegments_chars member

/-- Such a character is visible and neither a comma nor white space. -/
theorem addrChar_plain {c : Char} (addr : isAddrChar c = true) :
    (32 ≤ c.toNat ∧ c.toNat < 127) ∧ c ≠ ',' ∧ Text.isWhitespace c = false := by
  have range : (46 ≤ c.toNat ∧ c.toNat < 127) := by
    simp only [isAddrChar, Bool.or_eq_true, decide_eq_true_eq] at addr
    rcases addr with (hex | rfl) | rfl
    · have range := lowerHex_range hex
      omega
    · decide
    · decide
  refine ⟨by omega, ?_, ?_⟩
  · rintro rfl
    exact absurd range.1 (by decide)
  · simp only [Text.isWhitespace, Bool.or_eq_false_iff, Bool.and_eq_false_iff, decide_eq_false_iff_not]
    omega

/-! ## The last element of a list -/

/-- The last element of a comma-separated value, without the white space around it. -/
def lastElement (value : HeaderValue) : Option (List Char) :=
  value.toStr.bind fun text => (text.toList.splitOn ',').getLast?.map Text.trim

theorem trim_plain {s : List Char} (plain : ∀ c ∈ s, Text.isWhitespace c = false) : Text.trim s = s := by
  have front : s.dropWhile Text.isWhitespace = s := by
    cases s with
    | nil => rfl
    | cons c rest => rw [List.dropWhile_cons_of_neg (by simp [plain c List.mem_cons_self])]
  rw [Text.trim, front, List.rdropWhile_eq_self_iff]
  intro nonempty
  simp [plain _ (List.getLast_mem nonempty)]

theorem getLast?_splitOn {sep : Char} {s : List Char} (absent : sep ∉ s) (before : List Char) :
    ((before ++ sep :: s).splitOn sep).getLast? = some s ∧ (s.splitOn sep).getLast? = some s := by
  rw [List.splitOn_append_cons_self, List.splitOn_eq_singleton absent]
  simp

theorem toNat_ofNat {n : Nat} (small : n < 256) : (Char.ofNat n).toNat = n := by
  have valid : n.isValidChar := .inl (by omega)
  rw [Char.ofNat, dif_pos valid]
  rfl

/-- What reads as text is visible. -/
theorem toStr_visible {value : HeaderValue} {text : String} (reads : value.toStr = some text) :
    isVisibleText text = true := by
  unfold HeaderValue.toStr at reads
  split at reads
  · rename_i visible
    cases reads
    refine List.all_eq_true.mpr fun c member => ?_
    rw [String.toList_ofList] at member
    obtain ⟨b, listed, rfl⟩ := List.mem_map.mp member
    have seen := List.all_eq_true.mp visible b listed
    have valid : (Char.ofNat b.toNat).toNat = b.toNat := toNat_ofNat b.toNat_lt
    simp only [isVisibleByte, Bool.or_eq_true, Bool.and_eq_true, decide_eq_true_eq, UInt8.le_iff_toNat_le,
      UInt8.lt_iff_toNat_lt, ← UInt8.toNat_inj] at seen
    simp only [valid, Bool.or_eq_true, Bool.and_eq_true, decide_eq_true_eq]
    exact seen
  · cases reads

/-! ## What leaves the proxy -/

/-- The fields that say where a request came from: one `host` with the upstream's own
    host and port, one `x-forwarded-proto` with the protocol of the connection, and one
    `x-forwarded-for` that ends with the client's address. -/
structure Bounded (conn : Conn) (upstream : String) (headers : HeaderMap) : Prop where
  host : ∃ host port value, upstreamHostPort upstream = .ok (host, port) ∧ headers.getAll .host = [value] ∧
    value.bytes = Text.asBytes (s!"{host}:{port}").toList
  proto : headers.getAll .xForwardedProto = [conn.clientProto.value]
  client : ∃ value, headers.getAll .xForwardedFor = [value] ∧
    lastElement value = some conn.clientAddr.ip.toText.toList

theorem fromStr_bytes {text : String} {value : HeaderValue} (made : HeaderValue.fromStr text = some value) :
    value.bytes = Text.asBytes text.toList := by
  unfold HeaderValue.fromStr at made
  simp only at made
  split at made
  · cases made
    rfl
  · cases made

theorem asBytes_inj {a b : List Char} (same : Text.asBytes a = Text.asBytes b) : a = b := by
  have bytes : (String.ofList a).toByteArray = (String.ofList b).toByteArray := by
    rw [String.toByteArray_ofList, String.toByteArray_ofList]
    exact congrArg List.toByteArray same
  exact String.ofList_injective (String.toByteArray_inj.mp bytes)

/-- One value is made of one text. -/
theorem fromStr_inj {a b : String} {value : HeaderValue} (left : HeaderValue.fromStr a = some value)
    (right : HeaderValue.fromStr b = some value) : a = b :=
  String.toList_injective (asBytes_inj ((fromStr_bytes left).symm.trans (fromStr_bytes right)))

theorem addr_visible (ip : Net.IpAddr) : isVisibleText ip.toText = true := by
  refine List.all_eq_true.mpr fun c member => ?_
  obtain ⟨⟨low, high⟩, -, -⟩ := addrChar_plain (toText_chars ip c member)
  simp [low, high]

theorem addr_no_comma (ip : Net.IpAddr) : ',' ∉ ip.toText.toList := by
  intro member
  exact (addrChar_plain (toText_chars ip _ member)).2.1 rfl

theorem addr_trim (ip : Net.IpAddr) : Text.trim ip.toText.toList = ip.toText.toList := by
  apply trim_plain
  intro c member
  exact (addrChar_plain (toText_chars ip c member)).2.2

theorem visible_joined {text : String} (visible : isVisibleText text = true) (ip : Net.IpAddr) :
    isVisibleText (text ++ ", " ++ ip.toText) = true := by
  have back := addr_visible ip
  unfold isVisibleText at visible back ⊢
  rw [String.toList_append, String.toList_append, List.all_append, List.all_append, visible, back]
  decide

/-- The text that the chain is set to, where a chain that can be read may be there. -/
def chainText (existing : Option String) (ip : Net.IpAddr) : String :=
  match existing with
  | some text => text ++ ", " ++ ip.toText
  | none => ip.toText

theorem toList_chain (text : String) (ip : Net.IpAddr) :
    (chainText (some text) ip).toList = text.toList ++ ',' :: ' ' :: ip.toText.toList := by
  simp [chainText, String.toList_append]

theorem chainText_visible {existing : Option String}
    (readable : ∀ text, existing = some text → isVisibleText text = true) (ip : Net.IpAddr) :
    isVisibleText (chainText existing ip) = true := by
  cases existing with
  | none => exact addr_visible ip
  | some text => exact visible_joined (readable text rfl) ip

/-- The client's address is the last of the chain. -/
theorem lastElement_chain {existing : Option String} {ip : Net.IpAddr} {value : HeaderValue}
    (reads : value.toStr = some (chainText existing ip)) : lastElement value = some ip.toText.toList := by
  cases existing with
  | none =>
    rw [lastElement, reads, Option.bind_some, chainText, (getLast?_splitOn (addr_no_comma ip) []).2, Option.map_some,
      addr_trim]
  | some text =>
    have spaced : ',' ∉ ' ' :: ip.toText.toList := by
      simp [addr_no_comma ip]
    rw [lastElement, reads, Option.bind_some, toList_chain, (getLast?_splitOn spaced text.toList).1, Option.map_some]
    have space : Text.isWhitespace ' ' = true := by decide
    have trimmed : Text.trim (' ' :: ip.toText.toList) = Text.trim ip.toText.toList := by
      rw [Text.trim, List.dropWhile_cons_of_pos space]
      rfl
    rw [trimmed, addr_trim]

/-- The chain is set for every client, and nothing else of what came under the name is left. -/
theorem getAll_chain (headers : HeaderMap) (clientAddr : Net.SocketAddr) (proto : ClientProto) :
    ∃ value, HeaderValue.fromStr (chainText ((headers.get .xForwardedFor).bind HeaderValue.toStr) clientAddr.ip) =
        some value ∧
      value.toStr = some (chainText ((headers.get .xForwardedFor).bind HeaderValue.toStr) clientAddr.ip) ∧
      (appendForwardedHeaders headers clientAddr proto).getAll .xForwardedFor = [value] := by
  have other : (HeaderName.xForwardedFor = HeaderName.xForwardedProto) = False := by decide
  have readable : ∀ text, (headers.get .xForwardedFor).bind HeaderValue.toStr = some text →
      isVisibleText text = true := by
    intro text reads
    obtain ⟨existing, -, text⟩ := Option.bind_eq_some_iff.mp reads
    exact toStr_visible text
  obtain ⟨value, made, reads⟩ := fromStr_visible (chainText_visible readable clientAddr.ip)
  refine ⟨value, made, reads, ?_⟩
  unfold appendForwardedHeaders
  cases existing : (headers.get .xForwardedFor).bind HeaderValue.toStr with
  | none =>
    rw [existing, chainText] at made
    simp only [made, Multimap.getAll_insert, other, if_false, if_true]
  | some text =>
    rw [existing, chainText] at made
    simp only [made, Multimap.getAll_insert, other, if_false, if_true]

theorem appendForwarded_client (headers : HeaderMap) (clientAddr : Net.SocketAddr) (proto : ClientProto) :
    ∃ value, (appendForwardedHeaders headers clientAddr proto).getAll .xForwardedFor = [value] ∧
      lastElement value = some clientAddr.ip.toText.toList := by
  obtain ⟨value, -, reads, alone⟩ := getAll_chain headers clientAddr proto
  exact ⟨value, alone, lastElement_chain reads⟩

/-- Whatever a request is made of, it leaves bounded. -/
theorem prepared_bounded {parseUri : UriParser} {conn : Conn} {req out : Request UpstreamBody} {upstream : String}
    (prepared : prepareRequest parseUri req upstream conn.clientAddr conn.clientProto = .ok out) :
    Bounded conn upstream out.parts.headers := by
  obtain ⟨host, port, uri, value, split, made, rfl⟩ := prepareRequest_ok prepared
  refine ⟨⟨host, port, value, split, ?_, fromStr_bytes made⟩, ?_, appendForwarded_client _ _ _⟩
  · have proto : (HeaderName.host = HeaderName.xForwardedProto) = False := by decide
    have client : (HeaderName.host = HeaderName.xForwardedFor) = False := by decide
    unfold appendForwardedHeaders
    simp only [Multimap.getAll_insert, proto, if_false]
    split <;> simp only [Multimap.getAll_insert, client, if_false, if_true]
  · unfold appendForwardedHeaders
    simp only [Multimap.getAll_insert, if_true]

/-- The request that an action sends, with the address that it is meant for. -/
def sendsTo : Act → Option (String × Request UpstreamBody)
  | .sendRequest _ addr out | .spawnMirror _ addr out => some (addr, out)
  | _ => none

/-- In every run of the proxy every request that is sent, be it an attempt, a retry or a
    mirror copy, is bounded: what the client sent and what the route overrides decide
    nothing about it but the front of the chain. -/
theorem sent_bounded (sys : System) (s : Store) (w : System.World) (reaches : sys.Reaches (fun _ _ => True) s w)
    (n : Nat) (e : Event Act.Res) (member : (Tid.request n, e) ∈ w.log) (upstream : String) (out : Request UpstreamBody)
    (sent : sendsTo e.act = some (upstream, out)) : Bounded (sys.conn n) upstream out.parts.headers := by
  obtain ⟨trace, logged, runs⟩ := Pool.reaches_runs reaches
  have mine : e ∈ Pool.own (.request n) trace := by
    rw [logged] at member
    exact Pool.mem_own.mpr member
  obtain ⟨before, after, split⟩ := List.append_of_mem mine
  have run : Runs (serve sys.build sys.crates (sys.conn n) (sys.req n)) (before ++ e :: after)
      (w.threads (.request n)) := split ▸ runs (.request n)
  have may := Prog.keeps_event serve_keeps run
  cases act : e.act with
  | sendRequest timeout addr given =>
    rw [act] at may sent
    cases sent
    obtain ⟨route, body, _, _, prepared⟩ := may
    exact prepared_bounded prepared
  | spawnMirror timeout addr given =>
    rw [act] at may sent
    cases sent
    obtain ⟨route, mirror, _, _, _, prepared⟩ := may
    exact prepared_bounded prepared
  | _ =>
    rw [act] at sent
    cases sent

/-! ## A client that forges all three -/

def opaqueValue : HeaderValue := ⟨[0xff], by decide⟩

/-- Made-up values under each of the names, one of which is nominated in `Connection`. -/
def pretending : Request Incoming :=
  Samples.get ((((((Multimap.empty.insert .host Identity.forged).append .xForwardedFor opaqueValue).append .xForwardedFor
    Identity.forged).append .xForwardedProto Identity.forged).append .xForwardedProto opaqueValue).append .connection
    ⟨Text.asBytes "x-forwarded-proto".toList, by decide⟩)

def pretendingSystem : System where
  build := Samples.build
  crates := Samples.unreloaded
  configPath := "torana.toml"
  reloads := 0
  rounds _ := 0
  conn _ := Samples.conn
  req _ := pretending

theorem sent_bounded_pretending :
    ∃ w e upstream out, pretendingSystem.Reaches (fun _ _ => True)
      (Samples.store (Samples.config [Identity.mirroredRoute]) Table.empty) w ∧ (Tid.request 0, e) ∈ w.log ∧
      sendsTo e.act = some (upstream, out) ∧ Bounded Samples.conn upstream out.parts.headers := by
  obtain ⟨w, reaches, sent⟩ := System.reaches_of_run pretendingSystem (fun _ _ => true)
    (List.replicate 6 (.request 0, Samples.outside)) (Samples.store (Samples.config [Identity.mirroredRoute]) Table.empty)
    (fun w => w.log.any fun e => e.1 = .request 0 && (sendsTo e.2.act).isSome) (by decide +kernel)
  have reaches := Pool.reaches_mono (fun _ _ _ => trivial) reaches
  obtain ⟨⟨t, e⟩, member, shown⟩ := List.any_eq_true.mp sent
  simp only [Bool.and_eq_true, decide_eq_true_eq, Option.isSome_iff_exists] at shown
  obtain ⟨rfl, ⟨upstream, out⟩, sends⟩ := shown
  exact ⟨w, e, upstream, out, reaches, member, sends,
    sent_bounded pretendingSystem _ w reaches 0 e member upstream out sends⟩

end Boundary
end Torana
