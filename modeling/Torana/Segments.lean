import Mathlib.Data.List.Basic

/-!
Streams that arrive in pieces. However a stream is cut into reads that are not empty, the first
read is a beginning of it, and every beginning is the first read of some cut: a decision that
looks at the first read alone is the same for every cut exactly when it is the same for every
beginning.
-/
namespace Torana.Segments
variable {α : Type}

/-- One way in which a stream can arrive. -/
structure Delivery (stream : List α) where
  reads : List (List α)
  whole : reads.flatten = stream
  filled : ∀ read ∈ reads, read ≠ []

/-- What the first read returns, which is nothing at the end of an empty stream. -/
def Delivery.first {stream : List α} (delivery : Delivery stream) : List α := delivery.reads.headD []

theorem first_take {stream : List α} (delivery : Delivery stream) :
    delivery.first = stream.take delivery.first.length := by
  obtain ⟨reads, rfl, -⟩ := delivery
  cases reads with
  | nil => rfl
  | cons read rest =>
    rw [Delivery.first, List.headD_cons, List.flatten_cons, List.take_left]

theorem first_ne_nil {stream : List α} (nonempty : stream ≠ []) (delivery : Delivery stream) : delivery.first ≠ [] := by
  obtain ⟨reads, rfl, filled⟩ := delivery
  cases reads with
  | nil => exact absurd rfl nonempty
  | cons read rest => exact filled read List.mem_cons_self

/-- The stream in two pieces, or in one where the first is all of it. -/
def cut {stream : List α} (nonempty : stream ≠ []) {n : Nat} (positive : 0 < n) : Delivery stream where
  reads := if n < stream.length then [stream.take n, stream.drop n] else [stream]
  whole := by
    split <;> simp
  filled := by
    split
    · rename_i inside
      intro read member
      simp only [List.mem_cons, List.not_mem_nil, or_false] at member
      rcases member with rfl | rfl
      · rw [ne_eq, List.take_eq_nil_iff, not_or]
        exact ⟨Nat.ne_of_gt positive, nonempty⟩
      · rw [ne_eq, List.drop_eq_nil_iff, Nat.not_le]
        exact inside
    · intro read member
      rwa [List.mem_singleton.mp member]

theorem cut_first {stream : List α} (nonempty : stream ≠ []) {n : Nat} (positive : 0 < n) :
    (cut nonempty positive).first = stream.take n := by
  unfold cut Delivery.first
  split
  · rfl
  · rename_i beyond
    rw [List.headD_cons, List.take_of_length_le (Nat.not_lt.mp beyond)]

/-- What the first read decides does not depend on the cut exactly when all beginnings decide the same. -/
theorem decides_iff {β : Type} {stream : List α} (nonempty : stream ≠ []) (verdict : List α → β) :
    (∀ left right : Delivery stream, verdict left.first = verdict right.first) ↔
      ∀ n m, 0 < n → 0 < m → verdict (stream.take n) = verdict (stream.take m) := by
  constructor
  · intro same n m positive positive'
    have cuts := same (cut nonempty positive) (cut nonempty positive')
    rwa [cut_first, cut_first] at cuts
  · intro same left right
    have one := List.length_pos_iff.mpr (first_ne_nil nonempty left)
    have two := List.length_pos_iff.mpr (first_ne_nil nonempty right)
    rw [first_take left, first_take right]
    exact same _ _ one two

end Torana.Segments
