import Mathlib.Algebra.Order.BigOperators.Group.List

/-!
Parts of one allowance. Several tasks run one after the other, each with a share of time that it
does not exceed. When every share is what the earlier tasks left of the allowance, all of them
together do not exceed it.
-/
namespace Torana.Allowance
variable {τ : Type} [AddCommMonoid τ] [PartialOrder τ]

/-- What a task was given and what it used. -/
structure Share (τ : Type) [LE τ] where
  given : τ
  used : τ
  within : used ≤ given

/-- What was used together. -/
def spent (shares : List (Share τ)) : τ := (shares.map (·.used)).sum

/-- No share is more than what is left of the allowance in front of it. -/
def Allotted (total : τ) (shares : List (Share τ)) : Prop :=
  ∀ before share after, shares = before ++ share :: after → share.given + spent before ≤ total

theorem spent_append (first second : List (Share τ)) : spent (first ++ second) = spent first + spent second := by
  simp [spent]

section
variable [IsOrderedAddMonoid τ] [CanonicallyOrderedAdd τ]

/-- Shares of one allowance do not exceed it. -/
theorem spent_le {total : τ} {shares : List (Share τ)} (allotted : Allotted total shares) : spent shares ≤ total := by
  rcases List.eq_nil_or_concat shares with rfl | ⟨before, last, rfl⟩
  · exact zero_le
  · rw [List.concat_eq_append] at allotted ⊢
    have used : spent [last] ≤ last.given := by simpa [spent] using last.within
    calc spent (before ++ [last]) = spent [last] + spent before := by rw [spent_append, add_comm]
      _ ≤ last.given + spent before := add_le_add_left used _
      _ ≤ total := allotted before last [] rfl

theorem spent_eq_zero {shares : List (Share τ)} : spent shares = 0 ↔ ∀ share ∈ shares, share.used = 0 := by
  rw [spent, List.sum_eq_zero_iff]
  simp

end

section
variable [IsOrderedCancelAddMonoid τ] [CanonicallyOrderedAdd τ]

/-- When every task is given the whole allowance, its shares are what is left of it exactly when no
    task but the last one uses any of it. -/
theorem allotted_iff_idle {total : τ} {shares : List (Share τ)} (whole : ∀ share ∈ shares, share.given = total) :
    Allotted total shares ↔ ∀ share ∈ shares.dropLast, share.used = 0 := by
  constructor
  · intro allotted
    rcases List.eq_nil_or_concat shares with rfl | ⟨before, last, rfl⟩
    · simp
    · rw [List.concat_eq_append] at allotted whole ⊢
      rw [List.dropLast_concat, ← spent_eq_zero]
      have left := allotted before last [] rfl
      rw [whole last (by simp)] at left
      exact nonpos_iff_eq_zero.mp (le_of_add_le_add_left (left.trans_eq (add_zero total).symm))
  · rintro idle before share after rfl
    have unused : spent before = 0 := by
      refine spent_eq_zero.mpr fun one member => idle one ?_
      rw [List.dropLast_append_of_ne_nil (List.cons_ne_nil share after)]
      exact List.mem_append_left _ member
    rw [unused, add_zero, whole share (by simp)]

end

end Torana.Allowance
