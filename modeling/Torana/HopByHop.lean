import Torana.Boundary
import Torana.FieldLists

/-!
The fields that belong to one connection: the eight that the proxy knows and those that
the `Connection` field of the message lists. A line of it with an opaque byte is no text,
and what it lists next to that byte is forwarded.
-/
namespace Torana
open Http Proxy

namespace HopByHop
open FieldLists

/-! ## What `Connection` lists -/

/-- The bytes of a value, each as the character of its number. -/
def chars (value : HeaderValue) : List Char := value.bytes.map fun b => Char.ofNat b.toNat

/-- The value lists the name, in any case. -/
def Lists (value : HeaderValue) (name : HeaderName) : Prop :=
  ∃ element ∈ elements (chars value), Text.toAsciiLowercase element = name.text.toList

instance (value : HeaderValue) (name : HeaderName) : Decidable (Lists value name) :=
  inferInstanceAs (Decidable (∃ element ∈ elements (chars value), _))

/-- Some line of `Connection` lists the name. -/
def Nominated (headers : HeaderMap) (name : HeaderName) : Prop := ∃ line ∈ headers.getAll .connection, Lists line name

/-- Exactly the fields of the connection are removed, and every other keeps its values. -/
structure Exact (before after : HeaderMap) : Prop where
  present : ∀ name, after.getAll name ≠ [] ↔
    before.getAll name ≠ [] ∧ name ∉ hopByHopHeaders ∧ ¬Nominated before name
  values : ∀ name, after.getAll name ≠ [] → after.getAll name = before.getAll name

/-- Each field that a line with opaque bytes lists is known, absent or listed by a line of text too. -/
def Readable (headers : HeaderMap) : Prop :=
  ∀ line ∈ headers.getAll .connection, line.toStr = none → ∀ name, Lists line name →
    name ∈ hopByHopHeaders ∨ headers.getAll name = [] ∨
      ∃ other ∈ headers.getAll .connection, other.toStr ≠ none ∧ Lists other name

/-! ## What the proxy reads -/

theorem fromBytes_iff {text : List Char} {name : HeaderName} :
    HeaderName.fromBytes (String.ofList text) = some name ↔ Text.toAsciiLowercase text = name.text.toList := by
  constructor
  · intro parsed
    rw [fromBytes_text parsed, String.toList_ofList, String.toList_ofList]
  · intro same
    have lower : String.ofList (Text.toAsciiLowercase (String.ofList text).toList) = name.text := by
      rw [String.toList_ofList, same, String.ofList_toList]
    simp only [HeaderName.fromBytes, lower, name.wellFormed, dif_pos]

theorem name_ne_nil (name : HeaderName) : name.text.toList ≠ [] := by
  have legal := name.wellFormed
  intro empty
  rw [String.toList_eq_nil_iff] at empty
  rw [empty] at legal
  exact absurd legal (by decide)

theorem toStr_chars {value : HeaderValue} {text : String} (reads : value.toStr = some text) :
    text.toList = chars value := by
  unfold HeaderValue.toStr at reads
  split at reads
  · cases reads
    exact String.toList_ofList
  · cases reads

theorem trim_part {value : HeaderValue} {text : String} (reads : value.toStr = some text) {part : List Char}
    (member : part ∈ text.toList.splitOn ',') : Text.trim part = trimOws part := by
  refine trim_eq_trimOws fun c inside => visible_isOws ?_
  have visible := List.all_eq_true.mp (Boundary.toStr_visible reads) c (mem_splitOn_part member inside)
  simpa using visible

/-- A line of text is read as the list that it is. -/
theorem mem_options {value : HeaderValue} {text : String} (reads : value.toStr = some text) (name : HeaderName) :
    name ∈ (text.toList.splitOn ',').filterMap (fun part => HeaderName.fromBytes (String.ofList (Text.trim part))) ↔
      Lists value name := by
  have filled : ∀ element, Text.toAsciiLowercase element = name.text.toList → element ≠ [] := by
    rintro element lower rfl
    exact name_ne_nil name lower.symm
  rw [List.mem_filterMap]
  constructor
  · rintro ⟨part, member, parsed⟩
    rw [fromBytes_iff, trim_part reads member] at parsed
    refine ⟨_, (mem_elements (filled _ parsed)).mpr ⟨part, ?_, rfl⟩, parsed⟩
    rwa [← toStr_chars reads]
  · rintro ⟨element, member, lower⟩
    obtain ⟨part, listed, rfl⟩ := (mem_elements (filled _ lower)).mp member
    rw [← toStr_chars reads] at listed
    refine ⟨part, listed, ?_⟩
    rw [fromBytes_iff, trim_part reads listed]
    exact lower

/-- The names that the proxy reads are those on the lines of text. -/
theorem mem_connectionOptions {headers : HeaderMap} {name : HeaderName} :
    name ∈ connectionOptions headers ↔ ∃ line ∈ headers.getAll .connection, line.toStr ≠ none ∧ Lists line name := by
  unfold connectionOptions
  rw [List.mem_flatMap]
  constructor
  · rintro ⟨text, member, listed⟩
    obtain ⟨line, inside, reads⟩ := List.mem_filterMap.mp member
    exact ⟨line, inside, by simp [reads], (mem_options reads name).mp listed⟩
  · rintro ⟨line, inside, text, listed⟩
    obtain ⟨text, reads⟩ := Option.ne_none_iff_exists'.mp text
    exact ⟨text, List.mem_filterMap.mpr ⟨line, inside, reads⟩, (mem_options reads name).mpr listed⟩

theorem nominated_of_option {headers : HeaderMap} {name : HeaderName} (option : name ∈ connectionOptions headers) :
    Nominated headers name := by
  obtain ⟨line, member, -, listed⟩ := mem_connectionOptions.mp option
  exact ⟨line, member, listed⟩

theorem strip_present {headers : HeaderMap} {name : HeaderName} :
    (stripHopByHop headers).getAll name ≠ [] ↔
      headers.getAll name ≠ [] ∧ name ∉ hopByHopHeaders ∧ name ∉ connectionOptions headers := by
  rw [getAll_strip]
  split
  · rename_i removed
    refine ⟨fun present => absurd rfl present, ?_⟩
    rintro ⟨-, unknown, unlisted⟩
    exact absurd removed (not_or.mpr ⟨unknown, unlisted⟩)
  · rename_i kept
    exact ⟨fun present => ⟨present, not_or.mp kept⟩, And.left⟩

theorem strip_values {headers : HeaderMap} {name : HeaderName} (present : (stripHopByHop headers).getAll name ≠ []) :
    (stripHopByHop headers).getAll name = headers.getAll name := by
  obtain ⟨-, unknown, unlisted⟩ := strip_present.mp present
  rw [getAll_strip, if_neg (not_or.mpr ⟨unknown, unlisted⟩)]

/-- Exactly the fields of the connection are removed when no line with opaque bytes is the only
    one to list one of them. -/
theorem strip_exact_iff (headers : HeaderMap) : Exact headers (stripHopByHop headers) ↔ Readable headers := by
  constructor
  · intro removes line member unread name listed
    by_cases known : name ∈ hopByHopHeaders
    · exact .inl known
    · by_cases absent : headers.getAll name = []
      · exact .inr (.inl absent)
      · have gone : ¬(stripHopByHop headers).getAll name ≠ [] := by
          rw [removes.present]
          rintro ⟨-, -, unlisted⟩
          exact unlisted ⟨line, member, listed⟩
        rw [strip_present] at gone
        have option : name ∈ connectionOptions headers := by
          by_contra unlisted
          exact gone ⟨absent, known, unlisted⟩
        exact .inr (.inr (mem_connectionOptions.mp option))
  · intro readable
    refine ⟨?_, fun name => strip_values⟩
    intro name
    rw [strip_present]
    constructor
    · rintro ⟨present, unknown, unlisted⟩
      refine ⟨present, unknown, ?_⟩
      rintro ⟨line, member, listed⟩
      cases reads : line.toStr with
      | some text => exact unlisted (mem_connectionOptions.mpr ⟨line, member, by simp [reads], listed⟩)
      | none =>
        rcases readable line member reads name listed with known | absent | other
        · exact unknown known
        · exact present absent
        · exact unlisted (mem_connectionOptions.mpr other)
    · rintro ⟨present, unknown, unlisted⟩
      exact ⟨present, unknown, fun option => unlisted (nominated_of_option option)⟩

/-! ## A list with an opaque byte -/

def secretName : HeaderName := ⟨"x-secret", by decide⟩

/-- `Connection: X-Secret, \xff` beside the field that it lists. -/
def opaqueList : HeaderMap :=
  (Samples.field .connection ⟨Text.asBytes "X-Secret, ".toList ++ [0xff], by decide⟩).insert secretName
    Boundary.opaqueValue

/-- The field is listed, and it is forwarded. -/
theorem strip_forwards_listed : Nominated opaqueList secretName ∧
    (stripHopByHop opaqueList).getAll secretName ≠ [] ∧ ¬Exact opaqueList (stripHopByHop opaqueList) := by
  have listed : Nominated opaqueList secretName := by
    refine ⟨_, List.mem_cons_self, ?_⟩
    decide
  have kept : (stripHopByHop opaqueList).getAll secretName ≠ [] := by decide
  refine ⟨listed, kept, ?_⟩
  intro removes
  exact ((removes.present secretName).mp kept).2.2 listed

end HopByHop
end Torana
