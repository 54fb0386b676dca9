import Torana.Messages

/-!
HTTP/1.1 responses with a body of a known length (RFC 9112): what one is, how it is written,
and a reader that takes one from the front of a stream of bytes. A response that was written
is read back whatever stands behind it, so that its end is found by its length alone.
-/
namespace Torana.Responses
open Messages

/-! ## Responses -/

def isAscii (s : List Char) : Bool := s.all fun c => c.toNat < 128

/-- One field with the length, and no field by which the body would be coded. -/
def isSized (fields : List Field) (length : Nat) : Bool :=
  (match fields.filter (·.isNamed "content-length") with
    | [field] => field.value = Text.decimal length
    | _ => false) &&
  fields.all fun f => !f.isNamed "transfer-encoding"

structure Response where
  status : Nat
  reason : List Char
  fields : List Field
  body : List UInt8
  code : 100 ≤ status ∧ status < 1000
  legal : (isFieldValue reason && isAscii reason) = true
  ascii : (fields.all fun f => isAscii f.value) = true
  sized : isSized fields body.length = true

def version : List Char := ['H', 'T', 'T', 'P', '/', '1', '.', '1', ' ']

def statusLine (r : Response) : List Char := version ++ (Text.decimal r.status ++ ' ' :: r.reason)

def headLines (r : Response) : List (List Char) := statusLine r :: r.fields.map writeField

def writeHead (r : Response) : List Char := (headLines r).flatMap writeLine ++ writeLine []

def writeResponse (r : Response) : List UInt8 := Text.asBytes (writeHead r) ++ r.body

/-! ## Reading -/

/-- The bytes up to the first empty line, with it, and those behind. -/
def splitHead : List UInt8 → Option (List UInt8 × List UInt8)
  | 13 :: 10 :: 13 :: 10 :: rest => some ([13, 10, 13, 10], rest)
  | b :: rest => (splitHead rest).map fun r => (b :: r.1, r.2)
  | [] => none

def chars (bytes : List UInt8) : List Char := bytes.map fun b => Char.ofNat b.toNat

def readStatusLine (line : List Char) : Option (Nat × List Char) :=
  (Text.stripPrefix version line).bind fun rest =>
    match rest.drop 3 with
    | ' ' :: reason =>
      if (rest.take 3).all Char.isDigit then some (Nat.ofDigitChars 10 (rest.take 3) 0, reason) else none
    | _ => none

/-- The length that the fields announce. -/
def bodyLength (fields : List Field) : Option Nat :=
  match fields.filter (·.isNamed "content-length") with
  | [field] => some (Nat.ofDigitChars 10 field.value 0)
  | _ => none

/-- One response from the front of a stream, and what stands behind it. -/
def readResponse (stream : List UInt8) : Option (Response × List UInt8) := do
  let (head, behind) ← splitHead stream
  match lines (chars head) with
  | some (first :: rest) =>
    let (status, reason) ← readStatusLine first
    let fields ← readFields rest
    let length ← bodyLength fields
    let body := behind.take length
    if legal : (100 ≤ status ∧ status < 1000) ∧ (isFieldValue reason && isAscii reason) = true ∧
        (fields.all fun f => isAscii f.value) = true ∧ isSized fields body.length = true then
      some (⟨status, reason, fields, body, legal.1, legal.2.1, legal.2.2.1, legal.2.2.2⟩, behind.drop length)
    else none
  | _ => none

/-! ## Bytes and characters -/

theorem ascii_chars {s : List Char} (ascii : isAscii s = true) : ∀ c ∈ s, c.toNat < 128 := by
  intro c member
  simpa using List.all_eq_true.mp ascii c member

theorem bytes_append (a b : List Char) : Text.asBytes (a ++ b) = Text.asBytes a ++ Text.asBytes b := by
  simp [Text.asBytes]

theorem bytes_ascii {s : List Char} (ascii : ∀ c ∈ s, c.toNat < 128) :
    Text.asBytes s = s.map fun c => UInt8.ofNat c.toNat := by
  rw [Text.asBytes, List.map_eq_flatMap]
  exact List.flatMap_congr fun c member => Http.utf8_ascii (ascii c member)

/-- ASCII text is read from its bytes. -/
theorem chars_bytes {s : List Char} (ascii : ∀ c ∈ s, c.toNat < 128) : chars (Text.asBytes s) = s := by
  rw [bytes_ascii ascii, chars, List.map_map]
  refine (List.map_congr_left fun c member => ?_).trans (List.map_id s)
  have small := ascii c member
  have value : (UInt8.ofNat c.toNat).toNat = c.toNat := by
    rw [UInt8.toNat_ofNat']
    omega
  simp [value, Char.ofNat_toNat]

theorem bytes_plain {s : List Char} (ascii : ∀ c ∈ s, c.toNat < 128) (plain : ∀ c ∈ s, c ≠ '\r' ∧ c ≠ '\n') :
    ∀ b ∈ Text.asBytes s, b ≠ 13 := by
  intro b member
  rw [bytes_ascii ascii] at member
  obtain ⟨c, inside, rfl⟩ := List.mem_map.mp member
  intro same
  have small := ascii c inside
  have value : c.toNat = 13 := by
    have := congrArg UInt8.toNat same
    rw [UInt8.toNat_ofNat'] at this
    have thirteen : (13 : UInt8).toNat = 13 := rfl
    omega
  exact (plain c inside).1 (Char.toNat_inj.mp value)

/-! ## The end of the head -/

theorem splitHead_cons {b : UInt8} (other : b ≠ 13) (rest : List UInt8) :
    splitHead (b :: rest) = (splitHead rest).map fun r => (b :: r.1, r.2) := by
  rw [splitHead.eq_2]
  rintro rest' rfl
  exact absurd rfl other

theorem splitHead_plain {line : List UInt8} (plain : ∀ b ∈ line, b ≠ 13) (rest : List UInt8) :
    splitHead (line ++ rest) = (splitHead rest).map fun r => (line ++ r.1, r.2) := by
  induction line with
  | nil => simp
  | cons b tail ih =>
    obtain ⟨first, behind⟩ := List.forall_mem_cons.mp plain
    rw [List.cons_append, splitHead_cons first, ih behind, Option.map_map]
    rfl

/-- A line break that another line follows does not end the head. -/
theorem splitHead_break {b : UInt8} (other : b ≠ 13) (rest : List UInt8) :
    splitHead (13 :: 10 :: b :: rest) = (splitHead (b :: rest)).map fun r => (13 :: 10 :: r.1, r.2) := by
  have feed : splitHead (10 :: b :: rest) = (splitHead (b :: rest)).map fun r => (10 :: r.1, r.2) :=
    splitHead_cons (by decide) _
  rw [splitHead.eq_2, feed, Option.map_map]
  · rfl
  · intro rest' _ same
    simp only [List.cons.injEq, true_and] at same
    exact other same.1

theorem writeLine_bytes (line : List Char) : Text.asBytes (writeLine line) = Text.asBytes line ++ [13, 10] := by
  rw [writeLine, bytes_append]
  rfl

/-- The head of some lines, none of them empty, ends behind the empty line. -/
theorem splitHead_lines {ls : List (List Char)} (several : ls ≠ []) (filled : ∀ line ∈ ls, line ≠ [])
    (ascii : ∀ line ∈ ls, ∀ c ∈ line, c.toNat < 128) (plain : ∀ line ∈ ls, ∀ c ∈ line, c ≠ '\r' ∧ c ≠ '\n')
    (behind : List UInt8) : splitHead (Text.asBytes (ls.flatMap writeLine ++ writeLine []) ++ behind) =
      .some (Text.asBytes (ls.flatMap writeLine ++ writeLine []), behind) := by
  induction ls with
  | nil => exact absurd rfl several
  | cons line rest ih =>
    obtain ⟨_, filled'⟩ := List.forall_mem_cons.mp filled
    obtain ⟨small, ascii'⟩ := List.forall_mem_cons.mp ascii
    obtain ⟨here, plain'⟩ := List.forall_mem_cons.mp plain
    have first := bytes_plain small here
    rw [List.flatMap_cons, List.append_assoc, bytes_append, writeLine_bytes, List.append_assoc, List.append_assoc,
      splitHead_plain first]
    cases rest with
    | nil =>
      have last : Text.asBytes (([] : List (List Char)).flatMap writeLine ++ writeLine []) = [13, 10] := rfl
      have ends : splitHead ([13, 10] ++ ([13, 10] ++ behind)) = .some ([13, 10, 13, 10], behind) := rfl
      rw [last, ends, Option.map_some, List.append_assoc]
      rfl
    | cons next more =>
      have later := ih (List.cons_ne_nil _ _) filled' ascii' plain'
      obtain ⟨c, tail, rfl⟩ := List.exists_cons_of_ne_nil (filled' next List.mem_cons_self)
      have begins : ∃ b bytes, b ≠ 13 ∧
          Text.asBytes (((c :: tail) :: more).flatMap writeLine ++ writeLine []) = b :: bytes := by
        refine ⟨UInt8.ofNat c.toNat, Text.asBytes (tail ++ ['\r', '\n'] ++ more.flatMap writeLine ++ writeLine []), ?_, ?_⟩
        · refine bytes_plain (ascii' _ List.mem_cons_self) (plain' _ List.mem_cons_self) _ ?_
          rw [bytes_ascii (ascii' _ List.mem_cons_self)]
          exact List.mem_cons_self
        · have one := Http.utf8_ascii (ascii' _ List.mem_cons_self c List.mem_cons_self)
          rw [List.flatMap_cons, writeLine, List.cons_append, List.cons_append, List.cons_append]
          rw [Text.asBytes, List.flatMap_cons, one]
          rfl
      obtain ⟨b, bytes, other, starts⟩ := begins
      rw [starts] at later ⊢
      have broken : [13, 10] ++ (b :: bytes ++ behind) = 13 :: 10 :: b :: (bytes ++ behind) := rfl
      rw [broken, splitHead_break other]
      rw [List.cons_append] at later
      rw [later, Option.map_some, Option.map_some, List.append_assoc]
      rfl

/-! ## Reading what was written -/

section
variable (r : Response)

theorem reason_legal : isFieldValue r.reason = true ∧ ∀ c ∈ r.reason, c.toNat < 128 := by
  have legal := r.legal
  rw [Bool.and_eq_true] at legal
  exact ⟨legal.1, ascii_chars legal.2⟩

theorem value_plain {s : List Char} (legal : isFieldValue s = true) : ∀ c ∈ s, c ≠ '\r' ∧ c ≠ '\n' := by
  intro c member
  have held := List.all_eq_true.mp (Bool.and_eq_true _ _ ▸ legal).1 c member
  constructor
  · rintro rfl
    exact absurd held (by decide)
  · rintro rfl
    exact absurd held (by decide)

theorem digit_plain {c : Char} (digit : c.isDigit = true) : c.toNat < 128 ∧ c ≠ '\r' ∧ c ≠ '\n' := by
  have range : 48 ≤ c.toNat ∧ c.toNat ≤ 57 := by
    simp only [Char.isDigit, Bool.and_eq_true, decide_eq_true_eq] at digit
    exact digit
  refine ⟨by omega, ?_, ?_⟩
  · rintro rfl
    exact absurd digit (by decide)
  · rintro rfl
    exact absurd digit (by decide)

theorem decimal_digit {n : Nat} : ∀ c ∈ Text.decimal n, c.isDigit = true := by
  intro c member
  rw [Text.decimal] at member
  exact Nat.isDigit_of_mem_toDigits (by decide) (by decide) member

theorem statusLine_chars : ∀ c ∈ statusLine r, c.toNat < 128 ∧ c ≠ '\r' ∧ c ≠ '\n' := by
  have front : ∀ c ∈ version, c.toNat < 128 ∧ c ≠ '\r' ∧ c ≠ '\n' := by simp [version]
  intro c member
  simp only [statusLine, List.mem_append, List.mem_cons] at member
  rcases member with inside | digit | rfl | reason
  · exact front c inside
  · exact digit_plain (decimal_digit c digit)
  · decide
  · exact ⟨(reason_legal r).2 c reason, value_plain (reason_legal r).1 c reason⟩

theorem tokenChar_visible {c : Char} (legal : isTokenChar c = true) : 33 ≤ c.toNat ∧ c.toNat < 127 := by
  simp only [isTokenChar, Bool.or_eq_true, List.contains_iff_mem] at legal
  rcases legal with word | mark
  · have range := Uris.alphanum_range word
    omega
  · have all : ∀ c ∈ "!#$%&'*+-.^_`|~".toList, 33 ≤ c.toNat ∧ c.toNat < 127 :=
      List.forall_iff_forall_mem.mp (by decide)
    exact all c mark

theorem field_ascii {f : Field} (member : f ∈ r.fields) : ∀ c ∈ writeField f, c.toNat < 128 := by
  intro c inside
  simp only [writeField, List.mem_append, List.mem_cons] at inside
  rcases inside with name | rfl | rfl | value
  · have token := f.token
    rw [isToken, Bool.and_eq_true] at token
    have visible := tokenChar_visible (List.all_eq_true.mp token.2 c name)
    omega
  · decide
  · decide
  · exact ascii_chars (List.all_eq_true.mp r.ascii f member) c value

theorem headLines_good : ∀ line ∈ headLines r, line ≠ [] ∧ ∀ c ∈ line, c.toNat < 128 ∧ c ≠ '\r' ∧ c ≠ '\n' := by
  refine List.forall_mem_cons.mpr ⟨⟨List.cons_ne_nil _ _, statusLine_chars r⟩, ?_⟩
  intro line member
  obtain ⟨f, listed, rfl⟩ := List.mem_map.mp member
  exact ⟨by simp [writeField], fun c inside => ⟨field_ascii r listed c inside, field_chars f c inside⟩⟩

theorem writeHead_ascii : ∀ c ∈ writeHead r, c.toNat < 128 := by
  have ends : ∀ c ∈ ['\r', '\n'], c.toNat < 128 := List.forall_iff_forall_mem.mp (by decide)
  intro c member
  simp only [writeHead, List.mem_append, List.mem_flatMap] at member
  rcases member with ⟨line, listed, inside⟩ | last
  · rcases List.mem_append.mp inside with here | newline
    · exact (((headLines_good r) line listed).2 c here).1
    · exact ends c newline
  · exact ends c last

theorem statusLine_read : readStatusLine (statusLine r) = some (r.status, r.reason) := by
  have three : ∀ n < 1000, 100 ≤ n → (Text.decimal n).length = 3 := by decide +kernel
  have length := three r.status r.code.2 r.code.1
  have taken : (Text.decimal r.status ++ ' ' :: r.reason).take 3 = Text.decimal r.status := by
    rw [← length, List.take_left]
  have dropped : (Text.decimal r.status ++ ' ' :: r.reason).drop 3 = ' ' :: r.reason := by
    rw [← length, List.drop_left]
  have digits : (Text.decimal r.status).all Char.isDigit = true := List.all_eq_true.mpr decimal_digit
  have value : Nat.ofDigitChars 10 (Text.decimal r.status) 0 = r.status := Nat.ofDigitChars_ten_toDigits
  rw [readStatusLine, statusLine, Uris.stripPrefix_append, Option.bind_some, taken, dropped]
  simp only [digits, value, if_true]

theorem bodyLength_sized : bodyLength r.fields = some r.body.length := by
  have sized := r.sized
  rw [isSized, Bool.and_eq_true] at sized
  have single := sized.1
  unfold bodyLength
  split at single
  · rename_i field alone
    have value : Nat.ofDigitChars 10 (Text.decimal r.body.length) 0 = r.body.length := Nat.ofDigitChars_ten_toDigits
    simp only [of_decide_eq_true single, value]
  · cases single

/-- A written response is read back from the front of a stream, up to its last byte. -/
theorem readResponse_written (behind : List UInt8) : readResponse (writeResponse r ++ behind) = some (r, behind) := by
  have good := headLines_good r
  have ended : splitHead (writeResponse r ++ behind) = some (Text.asBytes (writeHead r), r.body ++ behind) := by
    rw [writeResponse, List.append_assoc]
    exact splitHead_lines (List.cons_ne_nil _ _) (fun line listed => (good line listed).1)
      (fun line listed c inside => ((good line listed).2 c inside).1)
      (fun line listed c inside => ((good line listed).2 c inside).2) _
  obtain ⟨rest, split, read⟩ := readFields_written r.fields
  have all : lines (writeHead r) = some (statusLine r :: rest) := by
    rw [writeHead, headLines, List.flatMap_cons, List.append_assoc, List.flatMap_map,
      lines_line fun c inside => ((statusLine_chars r) c inside).2, split, Option.map_some]
  unfold readResponse
  simp only [ended, Option.bind_eq_bind, Option.bind_some, chars_bytes (writeHead_ascii r), all, statusLine_read, read,
    bodyLength_sized, List.take_left, List.drop_left]
  rw [dif_pos ⟨r.code, r.legal, r.ascii, r.sized⟩]

end

end Torana.Responses
