import Torana.Text

/-!
Lists in field values, as RFC 9110 reads them: elements between commas, the white space
around an element is none of it, and an empty element is none. A field that comes on
several lines lists what its lines list in order.
-/
namespace Torana.FieldLists

/-- Optional white space: a space or a tab. -/
def isOws (c : Char) : Bool := c = ' ' || c = '\t'

def trimOws (s : List Char) : List Char := (s.dropWhile isOws).rdropWhile isOws

/-- The elements of one line. -/
def elements (line : List Char) : List (List Char) := ((line.splitOn ',').map trimOws).filter (· ≠ [])

/-- The elements of a field. -/
def listed (lines : List (List Char)) : List (List Char) := lines.flatMap elements

theorem mem_elements {line element : List Char} (filled : element ≠ []) :
    element ∈ elements line ↔ ∃ part ∈ line.splitOn ',', trimOws part = element := by
  simp [elements, filled]

theorem mem_intercalate_part {α : Type} {sep : List α} {parts : List (List α)} {part : List α} (member : part ∈ parts)
    {x : α} (inside : x ∈ part) : x ∈ sep.intercalate parts := by
  induction parts with
  | nil => cases member
  | cons first rest ih =>
    by_cases last : rest = []
    · subst last
      rw [List.mem_singleton] at member
      rw [List.intercalate_singleton, ← member]
      exact inside
    · rw [List.intercalate_cons_of_ne_nil last]
      rcases List.mem_cons.mp member with rfl | later
      · exact List.mem_append_left _ (List.mem_append_left _ inside)
      · exact List.mem_append_right _ (ih later)

/-- What stands between two separators comes from the text. -/
theorem mem_splitOn_part {α : Type} [BEq α] [LawfulBEq α] {c : α} {s part : List α} (member : part ∈ s.splitOn c)
    {x : α} (inside : x ∈ part) : x ∈ s := by
  have whole : [c].intercalate (s.splitOn c) = s := List.intercalate_splitOn c
  rw [← whole]
  exact mem_intercalate_part member inside

/-- A comma ends an element and begins the next. -/
theorem elements_append_comma (before after : List Char) :
    elements (before ++ ',' :: after) = elements before ++ elements after := by
  rw [elements, List.splitOn_append_cons_self, List.map_append, List.filter_append]
  rfl

theorem trimOws_space (s : List Char) : trimOws (' ' :: s) = trimOws s := by
  rw [trimOws, List.dropWhile_cons_of_pos (by decide)]
  rfl

/-- White space in front of a line is part of no element. -/
theorem elements_space {line : List Char} (single : ',' ∉ line) : elements (' ' :: line) = elements line := by
  have spaced : ',' ∉ ' ' :: line := by
    rw [List.mem_cons, not_or]
    exact ⟨by decide, single⟩
  rw [elements, elements, List.splitOn_eq_singleton spaced, List.splitOn_eq_singleton single, List.map_singleton,
    List.map_singleton, trimOws_space]

/-- A line without a comma is one element, if anything but white space is on it. -/
theorem elements_single {line : List Char} (single : ',' ∉ line) (trimmed : trimOws line = line) (filled : line ≠ []) :
    elements line = [line] := by
  rw [elements, List.splitOn_eq_singleton single, List.map_singleton, trimmed,
    List.filter_cons_of_pos (by simpa using filled)]
  rfl

/-- What follows a list behind a comma and a space is its last element. -/
theorem elements_appended (before : List Char) {element : List Char} (single : ',' ∉ element)
    (trimmed : trimOws element = element) (filled : element ≠ []) :
    elements (before ++ ',' :: ' ' :: element) = elements before ++ [element] := by
  rw [elements_append_comma, elements_space single, elements_single single trimmed filled]

/-! ## Where other white space is trimmed -/

theorem dropWhile_congr {α : Type} {p q : α → Bool} {s : List α} (same : ∀ x ∈ s, p x = q x) :
    s.dropWhile p = s.dropWhile q := by
  induction s with
  | nil => rfl
  | cons x rest ih =>
    rw [List.dropWhile_cons, List.dropWhile_cons, same x List.mem_cons_self,
      ih fun y member => same y (List.mem_cons_of_mem _ member)]

/-- A text in which no other white space is trims to the same. -/
theorem trim_eq_trimOws {s : List Char} (same : ∀ c ∈ s, Text.isWhitespace c = isOws c) :
    Text.trim s = trimOws s := by
  have front := dropWhile_congr same
  have back : ∀ c ∈ (s.dropWhile isOws).reverse, Text.isWhitespace c = isOws c := by
    intro c member
    exact same c ((List.dropWhile_suffix _).mem (List.mem_reverse.mp member))
  rw [Text.trim, trimOws, front, List.rdropWhile, List.rdropWhile, dropWhile_congr back]

/-- Nothing but a space and a tab is visible and white. -/
theorem visible_isOws {c : Char} (visible : (32 ≤ c.toNat ∧ c.toNat < 127) ∨ c.toNat = 9) :
    Text.isWhitespace c = isOws c := by
  have space : c = ' ' ↔ c.toNat = 32 := ⟨fun same => same ▸ rfl, fun same => Char.toNat_inj.mp same⟩
  have tab : c = '\t' ↔ c.toNat = 9 := ⟨fun same => same ▸ rfl, fun same => Char.toNat_inj.mp same⟩
  rw [Bool.eq_iff_iff]
  simp only [Text.isWhitespace, isOws, Bool.or_eq_true, Bool.and_eq_true, decide_eq_true_eq, space, tab]
  omega

end Torana.FieldLists
