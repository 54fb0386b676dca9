import Torana.Uris

/-!
HTTP/1.1 requests without a body (RFC 9112): what one is, how it is written, and a strict
reader that takes a text for one request and nothing else. A request that was written is
read back.
-/
namespace Torana.Messages
open Uris

/-! ## Fields -/

def isTokenChar (c : Char) : Bool := c.isAlphanum || "!#$%&'*+-.^_`|~".toList.contains c
def isToken (s : List Char) : Bool := s ≠ [] && s.all isTokenChar

def isBlank (c : Char) : Bool := c = ' ' || c = '\t'
def trimBlanks (s : List Char) : List Char := (s.dropWhile isBlank).rdropWhile isBlank

/-- No control character but the tab, and no blank at the ends. -/
def isFieldValue (s : List Char) : Bool :=
  s.all (fun c => (32 ≤ c.toNat && c.toNat ≠ 127) || c = '\t') && trimBlanks s = s

structure Field where
  name : List Char
  value : List Char
  token : isToken name = true
  legal : isFieldValue value = true
  deriving DecidableEq

def Field.isNamed (f : Field) (name : String) : Bool := Text.eqIgnoreAsciiCase f.name name.toList

def writeField (f : Field) : List Char := f.name ++ ':' :: ' ' :: f.value

def readField (line : List Char) : Option Field :=
  let name := line.takeWhile (· ≠ ':')
  let value := trimBlanks (line.drop (name.length + 1))
  if legal : ':' ∈ line ∧ isToken name = true ∧ isFieldValue value = true then
    some ⟨name, value, legal.2.1, legal.2.2⟩
  else none

/-! ## Requests -/

/-- One `Host` with a host and maybe a port, and no field that announces a body. -/
def isFramed (fields : List Field) : Bool :=
  (match fields.filter (·.isNamed "host") with
    | [host] => (readHostPort none host.value).isSome
    | _ => false) &&
  fields.all fun f => !f.isNamed "content-length" && !f.isNamed "transfer-encoding"

structure Request where
  method : List Char
  target : List Char
  fields : List Field
  token : isToken method = true
  origin : isOriginForm target = true
  framed : isFramed fields = true
  deriving DecidableEq

def writeLine (line : List Char) : List Char := line ++ ['\r', '\n']

def writeRequest (r : Request) : List Char :=
  writeLine (r.method ++ ' ' :: (r.target ++ ' ' :: "HTTP/1.1".toList)) ++
    (r.fields.flatMap fun f => writeLine (writeField f)) ++ writeLine []

/-- The lines of a text of which each ends with a return and a line feed. -/
def lines : List Char → Option (List (List Char))
  | [] => some []
  | '\r' :: '\n' :: rest => (lines rest).map ([] :: ·)
  | c :: rest =>
    if c = '\r' || c = '\n' then none
    else match lines rest with
      | some (line :: more) => some ((c :: line) :: more)
      | _ => none

/-- The fields up to the empty line that ends the text. -/
def readFields : List (List Char) → Option (List Field)
  | [[]] => some []
  | line :: rest => (readField line).bind fun f => (readFields rest).map (f :: ·)
  | [] => none

/-- Exactly one request. -/
def readRequest (text : List Char) : Option Request :=
  match lines text with
  | some (requestLine :: head) =>
    match requestLine.splitOn ' ' with
    | [method, target, version] =>
      (readFields head).bind fun fields =>
        if legal : version = "HTTP/1.1".toList ∧ isToken method = true ∧ isOriginForm target = true ∧
            isFramed fields = true then
          some ⟨method, target, fields, legal.2.1, legal.2.2.1, legal.2.2.2⟩
        else none
    | _ => none
  | _ => none

/-! ## Reading what was written -/

theorem tokenChar_plain {c : Char} (legal : isTokenChar c = true) : c ≠ ' ' ∧ c ≠ ':' ∧ c ≠ '\r' ∧ c ≠ '\n' := by
  refine ⟨?_, ?_, ?_, ?_⟩
  all_goals
    rintro rfl
    exact absurd legal (by decide)

theorem token_chars {s : List Char} (token : isToken s = true) :
    ∀ c ∈ s, c ≠ ' ' ∧ c ≠ ':' ∧ c ≠ '\r' ∧ c ≠ '\n' := by
  intro c member
  exact tokenChar_plain (List.all_eq_true.mp (Bool.and_eq_true _ _ ▸ token).2 c member)

/-- A line without the characters that end one is read up to its end. -/
theorem lines_line {line : List Char} (plain : ∀ c ∈ line, c ≠ '\r' ∧ c ≠ '\n') (rest : List Char) :
    lines (writeLine line ++ rest) = (lines rest).map (line :: ·) := by
  induction line with
  | nil => rfl
  | cons c tail ih =>
    obtain ⟨first, behind⟩ := List.forall_mem_cons.mp plain
    have read := ih behind
    rw [writeLine] at read ⊢
    rw [List.cons_append, List.cons_append, lines.eq_3 _ _ fun _ same => absurd same first.1, read]
    cases lines rest with
    | none => simp [first.1, first.2]
    | some more => simp [first.1, first.2]

theorem trim_value {value : List Char} (legal : isFieldValue value = true) : trimBlanks (' ' :: value) = value := by
  have trimmed := (Bool.and_eq_true _ _ ▸ legal).2
  rw [decide_eq_true_eq] at trimmed
  exact trimmed

/-- Visible text is a field value. -/
theorem visible_value {s : List Char} (visible : ∀ c ∈ s, 33 ≤ c.toNat ∧ c.toNat < 127) : isFieldValue s = true := by
  have marked : ∀ c ∈ s, isBlank c = false := by
    intro c member
    have low := (visible c member).1
    rw [isBlank, Bool.or_eq_false_iff, decide_eq_false_iff_not, decide_eq_false_iff_not]
    constructor
    · rintro rfl
      exact absurd low (by decide)
    · rintro rfl
      exact absurd low (by decide)
  have front : s.dropWhile isBlank = s := by
    refine List.dropWhile_eq_self_iff.mpr ?_
    intro filled
    rw [marked _ (List.getElem_mem filled)]
    decide
  have back : s.rdropWhile isBlank = s := by
    refine List.rdropWhile_eq_self_iff.mpr ?_
    intro filled
    rw [marked _ (List.getLast_mem filled)]
    decide
  rw [isFieldValue, trimBlanks, front, back, Bool.and_eq_true, List.all_eq_true]
  refine ⟨?_, decide_eq_true rfl⟩
  intro c member
  have range := visible c member
  simp only [Bool.or_eq_true, Bool.and_eq_true, decide_eq_true_eq]
  exact .inl ⟨by omega, by omega⟩

theorem readField_written (f : Field) : readField (writeField f) = some f := by
  have name : ':' ∉ f.name := fun member => (token_chars f.token _ member).2.1 rfl
  have taken := (takeWhile_ne name (' ' :: f.value)).1
  have value : trimBlanks ((writeField f).drop (f.name.length + 1)) = f.value := by
    rw [writeField, List.drop_length_add_append]
    exact trim_value f.legal
  unfold readField
  simp only [writeField] at taken value ⊢
  simp only [taken, value]
  rw [dif_pos ⟨by simp, f.token, f.legal⟩]

theorem field_chars (f : Field) : ∀ c ∈ writeField f, c ≠ '\r' ∧ c ≠ '\n' := by
  intro c member
  rcases List.mem_append.mp member with name | behind
  · exact (token_chars f.token c name).2.2
  · simp only [List.mem_cons] at behind
    rcases behind with rfl | rfl | value
    · decide
    · decide
    · have legal := List.all_eq_true.mp (Bool.and_eq_true _ _ ▸ f.legal).1 c value
      constructor
      · rintro rfl
        exact absurd legal (by decide)
      · rintro rfl
        exact absurd legal (by decide)

theorem readFields_written (fields : List Field) : ∃ head,
    lines ((fields.flatMap fun f => writeLine (writeField f)) ++ writeLine []) = some head ∧
      readFields head = some fields := by
  induction fields with
  | nil => exact ⟨[[]], rfl, rfl⟩
  | cons f rest ih =>
    obtain ⟨head, split, read⟩ := ih
    refine ⟨writeField f :: head, ?_, ?_⟩
    · rw [List.flatMap_cons, List.append_assoc, lines_line (field_chars f), split, Option.map_some]
    · have filled : writeField f ≠ [] := by simp [writeField]
      rw [readFields.eq_2, readField_written, Option.bind_some, read, Option.map_some]
      intro empty
      exact absurd empty filled

theorem origin_chars {s : List Char} (origin : isOriginForm s = true) : ∀ c ∈ s, c ≠ ' ' ∧ c ≠ '\r' ∧ c ≠ '\n' := by
  intro c member
  have visible := (originForm_visible origin c member).1
  refine ⟨?_, ?_, ?_⟩
  all_goals
    rintro rfl
    exact absurd visible (by decide)

theorem splitOn_three {a b c : List Char} (first : ' ' ∉ a) (second : ' ' ∉ b) (third : ' ' ∉ c) :
    (a ++ ' ' :: (b ++ ' ' :: c)).splitOn ' ' = [a, b, c] := by
  rw [List.splitOn_append_cons_self, List.splitOn_append_cons_self, List.splitOn_eq_singleton first,
    List.splitOn_eq_singleton second, List.splitOn_eq_singleton third]
  rfl

/-- A written request is read back, and nothing else is in the text. -/
theorem readRequest_written (r : Request) : readRequest (writeRequest r) = some r := by
  have method := token_chars r.token
  have target := origin_chars r.origin
  have version : ∀ c ∈ "HTTP/1.1".toList, c ≠ ' ' ∧ c ≠ '\r' ∧ c ≠ '\n' :=
    List.forall_iff_forall_mem.mp (by decide)
  have plain : ∀ c ∈ r.method ++ ' ' :: (r.target ++ ' ' :: "HTTP/1.1".toList), c ≠ '\r' ∧ c ≠ '\n' := by
    intro c member
    simp only [List.mem_append, List.mem_cons] at member
    rcases member with inside | rfl | inside | rfl | inside
    · exact (method c inside).2.2
    · decide
    · exact (target c inside).2
    · decide
    · exact (version c inside).2
  obtain ⟨head, split, read⟩ := readFields_written r.fields
  have all : lines (writeRequest r) = some ((r.method ++ ' ' :: (r.target ++ ' ' :: "HTTP/1.1".toList)) :: head) := by
    rw [writeRequest, List.append_assoc, lines_line plain, split, Option.map_some]
  have words := splitOn_three (fun member => (method _ member).1 rfl) (fun member => (target _ member).1 rfl)
    (fun member => (version _ member).1 rfl)
  unfold readRequest
  simp only [all, words, read, Option.bind_some]
  rw [dif_pos ⟨trivial, r.token, r.origin, r.framed⟩]

end Torana.Messages
