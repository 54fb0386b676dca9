import Mathlib.Data.List.Basic

/-!
Texts that a separator cuts into parts. A test on the texts themselves, for a beginning or an
end that a separator bounds, is a test on their lists of parts.
-/
namespace Torana.Parts
variable {α : Type}

theorem intercalate_append {c : α} {first second : List (List α)} (filled : first ≠ []) (other : second ≠ []) :
    [c].intercalate (first ++ second) = [c].intercalate first ++ c :: [c].intercalate second := by
  induction first with
  | nil => exact absurd rfl filled
  | cons part rest ih =>
    cases rest with
    | nil =>
      rw [List.singleton_append, List.intercalate_cons_of_ne_nil other, List.intercalate_singleton]
      simp
    | cons next rest =>
      have joined := ih (List.cons_ne_nil next rest)
      rw [List.cons_append] at joined
      rw [List.cons_append, List.cons_append, List.intercalate_cons_cons, joined, List.intercalate_cons_cons]
      simp

variable [BEq α] [LawfulBEq α]

/-- A text is put together again from two lists of parts with a separator between them. -/
theorem join_append {c : α} {first second : List (List α)} (filled : first ≠ []) (other : second ≠ []) {s : List α}
    (parts : s.splitOn c = first ++ second) : s = [c].intercalate first ++ c :: [c].intercalate second := by
  rw [← intercalate_append filled other, ← parts, List.intercalate_splitOn]

theorem splitOn_inj {c : α} {s t : List α} (same : s.splitOn c = t.splitOn c) : s = t := by
  calc s = [c].intercalate (s.splitOn c) := (List.intercalate_splitOn c).symm
    _ = [c].intercalate (t.splitOn c) := by rw [same]
    _ = t := List.intercalate_splitOn c

/-- The parts of a text begin those of another one exactly when the texts are the same, or the
    other goes on with a separator. -/
theorem splitOn_prefix_iff {c : α} {start s : List α} :
    start.splitOn c <+: s.splitOn c ↔ s = start ∨ start ++ [c] <+: s := by
  constructor
  · rintro ⟨rest, parts⟩
    by_cases whole : rest = []
    · rw [whole, List.append_nil] at parts
      exact .inl (splitOn_inj parts).symm
    · have joined := join_append (List.splitOn_ne_nil c start) whole parts.symm
      rw [List.intercalate_splitOn] at joined
      exact .inr ⟨[c].intercalate rest, by rw [joined]; simp⟩
  · rintro (rfl | ⟨rest, rfl⟩)
    · exact List.prefix_refl _
    · rw [List.append_assoc, List.singleton_append, List.splitOn_append_cons_self]
      exact List.prefix_append _ _

/-- The same for the end of a text. -/
theorem splitOn_suffix_iff {c : α} {ending s : List α} :
    ending.splitOn c <:+ s.splitOn c ↔ s = ending ∨ c :: ending <:+ s := by
  constructor
  · rintro ⟨rest, parts⟩
    by_cases whole : rest = []
    · rw [whole, List.nil_append] at parts
      exact .inl (splitOn_inj parts).symm
    · have joined := join_append whole (List.splitOn_ne_nil c ending) parts.symm
      rw [List.intercalate_splitOn] at joined
      exact .inr ⟨[c].intercalate rest, joined.symm⟩
  · rintro (rfl | ⟨rest, rfl⟩)
    · exact List.suffix_refl _
    · rw [List.splitOn_append_cons_self]
      exact List.suffix_append _ _

end Torana.Parts
