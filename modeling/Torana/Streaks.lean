import Torana.Rotation
import Mathlib.Algebra.Order.BigOperators.Group.Finset
import Mathlib.Data.Fintype.Fin
import Mathlib.Order.Interval.Finset.Fin

/-!
How often one element comes in a row when rounds of different elements follow each other.
A streak goes on from one round to the next where the element is the last of the one and the
first of the other, so that rounds in which it is alone make one streak. Where each round
takes the places whose weights exceed its number, the longest streak of a place is its
weight above what any other place weighs.
-/
namespace Torana.Streaks
open Rotation (interleave)
variable {α : Type}

/-! ## The ends of a sorted list -/

theorem head?_sorted {R : α → α → Prop} (asymm : ∀ {x y}, R x y → ¬R y x) {xs : List α} (sorted : xs.Pairwise R)
    {x : α} : xs.head? = some x ↔ x ∈ xs ∧ ∀ y ∈ xs, ¬R y x := by
  cases xs with
  | nil => simp
  | cons first rest =>
    have later := (List.pairwise_cons.mp sorted).1
    rw [List.head?_cons, Option.some.injEq]
    constructor
    · rintro rfl
      refine ⟨List.mem_cons_self, ?_⟩
      intro y member
      rcases List.mem_cons.mp member with rfl | behind
      · exact fun self => asymm self self
      · exact asymm (later y behind)
    · rintro ⟨member, least⟩
      rcases List.mem_cons.mp member with same | behind
      · exact same.symm
      · exact absurd (later x behind) (least first List.mem_cons_self)

theorem getLast?_sorted {R : α → α → Prop} (asymm : ∀ {x y}, R x y → ¬R y x) {xs : List α} (sorted : xs.Pairwise R)
    {x : α} : xs.getLast? = some x ↔ x ∈ xs ∧ ∀ y ∈ xs, ¬R x y := by
  have reversed : xs.reverse.Pairwise fun y z => R z y := List.pairwise_reverse.mpr sorted
  rw [← List.head?_reverse, head?_sorted asymm reversed]
  simp only [List.mem_reverse]

/-! ## Rounds one behind the other -/

/-- The first rounds, one behind the other. -/
def unrolled (rounds : Nat → List α) (n : Nat) : List α := (List.range n).flatMap rounds

theorem unrolled_succ (rounds : Nat → List α) (n : Nat) : unrolled rounds (n + 1) = unrolled rounds n ++ rounds n := by
  simp [unrolled, List.range_succ]

theorem unrolled_of_le (rounds : Nat → List α) {m n : Nat} (fewer : m ≤ n) :
    unrolled rounds m <+: unrolled rounds n := by
  induction n, fewer using Nat.le_induction with
  | base => exact List.prefix_rfl
  | succ n _ ih =>
    rw [unrolled_succ]
    exact ih.trans (List.prefix_append _ _)

/-- A streak up to the end of a round is one element long, or the round is that element alone and
    it is a streak up to the end of the rounds before. -/
theorem suffix_round {x : α} {k : Nat} {before round : List α} (distinct : round.Nodup) (filled : round ≠ [])
    (ends : List.replicate (k + 1) x <:+ before ++ round) :
    round.getLast? = some x ∧ (k = 0 ∨ (round = [x] ∧ List.replicate k x <:+ before)) := by
  obtain rfl | ⟨front, y, rfl⟩ := List.eq_nil_or_concat' round
  · exact absurd rfl filled
  · rw [← List.append_assoc, List.suffix_concat_iff, List.replicate_succ'] at ends
    obtain empty | ⟨rest, same, ends⟩ := ends
    · simp at empty
    · obtain ⟨rfl, last⟩ := List.append_inj' same rfl
      cases last
      refine ⟨List.getLast?_concat, ?_⟩
      cases k with
      | zero => exact .inl rfl
      | succ k =>
        obtain rfl | ⟨front, z, rfl⟩ := List.eq_nil_or_concat' front
        · rw [List.append_nil] at ends
          exact .inr ⟨rfl, ends⟩
        · -- The element would be in the round twice.
          rw [← List.append_assoc, List.suffix_concat_iff, List.replicate_succ'] at ends
          obtain empty | ⟨rest, same, -⟩ := ends
          · simp at empty
          · cases (List.append_inj' same rfl).2
            rw [List.append_assoc] at distinct
            exact absurd (List.nodup_append.mp distinct).2.1 (by simp)

/-- A streak of a round that is behind others lies in those, or it ends with the element in the round. -/
theorem infix_round {x : α} {k : Nat} {before round : List α} (distinct : round.Nodup)
    (inside : List.replicate (k + 1) x <:+: before ++ round) :
    List.replicate (k + 1) x <:+: before ∨
      (x ∈ round ∧ (k = 0 ∨ (round.head? = some x ∧ List.replicate k x <:+ before))) := by
  induction round using List.reverseRecOn with
  | nil =>
    rw [List.append_nil] at inside
    exact .inl inside
  | append_singleton front y ih =>
    rw [← List.append_assoc, List.infix_concat_iff] at inside
    rcases inside with ends | inside
    · rw [List.append_assoc] at ends
      obtain ⟨last, single | ⟨alone, ends⟩⟩ := suffix_round distinct (by simp) ends
      · exact .inr ⟨List.mem_of_getLast? last, .inl single⟩
      · refine .inr ⟨List.mem_of_getLast? last, .inr ⟨?_, ends⟩⟩
        rw [alone]
        rfl
    · refine (ih (List.nodup_append.mp distinct).1 inside).imp_right ?_
      rintro ⟨member, single | ⟨first, ends⟩⟩
      · exact ⟨List.mem_append_left _ member, .inl single⟩
      · refine ⟨List.mem_append_left _ member, .inr ⟨?_, ends⟩⟩
        rw [List.head?_append, first]
        rfl

/-- The last element of a streak is in some round, and the streak is one element long or that round
    begins with it. -/
theorem infix_unrolled {x : α} {k n : Nat} {rounds : Nat → List α} (distinct : ∀ r, (rounds r).Nodup)
    (inside : List.replicate (k + 1) x <:+: unrolled rounds n) :
    ∃ r, x ∈ rounds r ∧ (k = 0 ∨ ((rounds r).head? = some x ∧ List.replicate k x <:+ unrolled rounds r)) := by
  induction n with
  | zero =>
    have empty : List.replicate (k + 1) x = [] := List.infix_nil.mp inside
    simp at empty
  | succ n ih =>
    rw [unrolled_succ] at inside
    rcases infix_round (distinct n) inside with earlier | last
    · exact ih earlier
    · exact ⟨n, last⟩

/-! ## Cyclic reading -/

/-- Rounds that repeat are their first turn, repeated. -/
theorem unrolled_turns {rounds : Nat → List α} {period : Nat} (periodic : Function.Periodic rounds period)
    (turns : Nat) : unrolled rounds (period * turns) = unrolled (fun _ => unrolled rounds period) turns := by
  induction turns with
  | zero => rfl
  | succ turns ih =>
    rw [unrolled_succ, ← ih, unrolled, Nat.mul_succ, List.range_add, List.flatMap_append, List.flatMap_map]
    refine congrArg (unrolled rounds (period * turns) ++ ·) (List.flatMap_congr fun r _ => ?_)
    rw [Nat.add_comm, Nat.mul_comm]
    exact periodic.nat_mul turns r

theorem length_turns (xs : List α) (turns : Nat) : (unrolled (fun _ => xs) turns).length = xs.length * turns := by
  induction turns with
  | zero => rfl
  | succ turns ih => rw [unrolled_succ, List.length_append, ih, Nat.mul_succ]

theorem getElem?_turns {xs : List α} {turns t : Nat} (inside : t < xs.length * turns) :
    (unrolled (fun _ => xs) turns)[t]? = xs[t % xs.length]? := by
  induction turns with
  | zero => exact absurd inside (Nat.not_lt_zero t)
  | succ turns ih =>
    rw [unrolled_succ]
    by_cases before : t < xs.length * turns
    · rw [List.getElem?_append_left (by rwa [length_turns]), ih before]
    · obtain ⟨s, rfl⟩ := Nat.exists_eq_add_of_le (Nat.not_lt.mp before)
      rw [Nat.mul_succ] at inside
      rw [List.getElem?_append_right (by rw [length_turns]; exact Nat.le_add_right _ _), length_turns,
        Nat.add_sub_cancel_left, Nat.mul_add_mod, Nat.mod_eq_of_lt (by omega)]

/-- An element comes a number of times in a row exactly when as many of it are in some turns. -/
theorem streak_turns_iff {xs : List α} (filled : xs ≠ []) {x : α} {k : Nat} :
    (∃ start, ∀ s < k, xs[(start + s) % xs.length]? = some x) ↔
      ∃ turns, List.replicate k x <:+: unrolled (fun _ => xs) turns := by
  have positive : 0 < xs.length := List.length_pos_iff.mpr filled
  constructor
  · rintro ⟨start, streak⟩
    refine ⟨start + k, ?_⟩
    have inside : ∀ s, s < start + k → s < xs.length * (start + k) :=
      fun s below => Nat.lt_of_lt_of_le below (Nat.le_mul_of_pos_left _ positive)
    have window : List.replicate k x = ((unrolled (fun _ => xs) (start + k)).drop start).take k := by
      refine List.ext_getElem? fun s => ?_
      by_cases below : s < k
      · rw [List.getElem?_take_of_lt below, List.getElem?_drop, getElem?_turns (inside _ (by omega)), streak s below,
          List.getElem?_replicate_of_lt below]
      · rw [List.getElem?_eq_none (by simp; omega), List.getElem?_eq_none (by simp; omega)]
    rw [window]
    exact (List.take_prefix _ _).isInfix.trans (List.drop_suffix _ _).isInfix
  · rintro ⟨turns, before, after, whole⟩
    refine ⟨before.length, fun s below => ?_⟩
    have size := congrArg List.length whole
    rw [length_turns, List.length_append, List.length_append, List.length_replicate] at size
    have inside : before.length + s < xs.length * turns := by omega
    rw [← getElem?_turns inside, ← whole, List.append_assoc,
      List.getElem?_append_right (Nat.le_add_right _ _), Nat.add_sub_cancel_left,
      List.getElem?_append_left (by simpa using below), List.getElem?_replicate_of_lt below]

/-! ## Rounds of weighted places -/

section
variable {n : Nat} (w : Fin n → Nat)

/-- The places whose weights exceed the number of the round. -/
def round (r : Nat) : List (Fin n) := (List.finRange n).filter fun j => r < w j

/-- The rounds up to the largest weight, begun again after the last. -/
def cycled (most r : Nat) : List (Fin n) := round w (r % most)

/-- The largest weight in front of a place. -/
def ahead (i : Fin n) : Nat := (Finset.Iio i).sup w

/-- The largest weight behind a place. -/
def behind (i : Fin n) : Nat := (Finset.Ioi i).sup w

/-- The longest streak of a place, where it is more than one: the rounds that no place behind it is
    in and, but for the first of them, none in front of it, and one more at the turn where no place
    is in front of it. -/
def longest (i : Fin n) : Nat := w i - max (behind w i) (ahead w i - 1) + if ahead w i = 0 then 1 else 0

/-- Several places with positive weights, the largest of which is given. -/
structure Weighted (most : Nat) : Prop where
  several : 2 ≤ n
  positive : ∀ j, 1 ≤ w j
  bounded : ∀ j, w j ≤ most
  reached : ∃ j, w j = most

end

section
variable {n : Nat} {w : Fin n → Nat}

theorem mem_round {r : Nat} {j : Fin n} : j ∈ round w r ↔ r < w j := by
  simp [round]

theorem round_sorted (r : Nat) : (round w r).Pairwise (· < ·) := (List.sortedLT_finRange n).pairwise.filter _

theorem round_nodup (r : Nat) : (round w r).Nodup := (List.nodup_finRange n).filter _

theorem ahead_le_iff {i : Fin n} {r : Nat} : ahead w i ≤ r ↔ ∀ j < i, w j ≤ r := by
  simp [ahead]

theorem behind_le_iff {i : Fin n} {r : Nat} : behind w i ≤ r ↔ ∀ j, i < j → w j ≤ r := by
  simp [behind]

/-- A place is the first of a round when no heavier place is in front of it. -/
theorem head_iff {i : Fin n} {r : Nat} : (round w r).head? = some i ↔ r < w i ∧ ahead w i ≤ r := by
  rw [head?_sorted lt_asymm (round_sorted r), mem_round, ahead_le_iff]
  refine and_congr_right fun _ => forall_congr' fun j => ?_
  rw [mem_round, imp_not_comm, Nat.not_lt]

/-- It is the last when none is behind it. -/
theorem last_iff {i : Fin n} {r : Nat} : (round w r).getLast? = some i ↔ r < w i ∧ behind w i ≤ r := by
  rw [getLast?_sorted lt_asymm (round_sorted r), mem_round, behind_le_iff]
  refine and_congr_right fun _ => forall_congr' fun j => ?_
  rw [mem_round, imp_not_comm, Nat.not_lt]

/-- With no heavier place at all it is alone. -/
theorem round_alone {i : Fin n} {r : Nat} (inside : r < w i) (front : ahead w i ≤ r) (back : behind w i ≤ r) :
    round w r = [i] := by
  have alone : (List.finRange n).filter (· == i) = [i] := by
    rw [List.filter_beq, List.count_finRange]
    rfl
  rw [← alone]
  refine List.filter_congr fun j _ => ?_
  rw [Bool.eq_iff_iff, decide_eq_true_eq, beq_iff_eq]
  constructor
  · intro heavier
    by_contra other
    rcases lt_or_gt_of_ne other with before | after
    · exact absurd (ahead_le_iff.mp front j before) (Nat.not_le.mpr heavier)
    · exact absurd (behind_le_iff.mp back j after) (Nat.not_le.mpr heavier)
  · rintro rfl
    exact inside

/-! ## The longest streak -/

section
variable {most : Nat}

/-- One place weighs something in front of this one or behind it. -/
theorem ahead_or_behind (weighted : Weighted w most) (i : Fin n) : 1 ≤ ahead w i ∨ 1 ≤ behind w i := by
  have several := weighted.several
  by_contra light
  obtain ⟨front, back⟩ := not_or.mp light
  have lightest : ∀ j, j = i := by
    intro j
    by_contra other
    have heavy := weighted.positive j
    rcases lt_or_gt_of_ne other with before | after
    · have := ahead_le_iff.mp (Nat.le_refl (ahead w i)) j before
      omega
    · have := behind_le_iff.mp (Nat.le_refl (behind w i)) j after
      omega
  have first := lightest ⟨0, by omega⟩
  have second := lightest ⟨1, by omega⟩
  rw [← second, Fin.mk.injEq] at first
  omega

theorem most_pos (weighted : Weighted w most) : 0 < most := by
  obtain ⟨j, same⟩ := weighted.reached
  rw [← same]
  exact weighted.positive j

theorem cycled_ne_nil (weighted : Weighted w most) (r : Nat) : cycled w most r ≠ [] := by
  obtain ⟨j, same⟩ := weighted.reached
  refine List.ne_nil_of_mem (mem_round.mpr ?_ : j ∈ cycled w most r)
  rw [same]
  exact Nat.mod_lt r (most_pos weighted)

theorem next_residue (positive : 0 < most) (r : Nat) :
    ((r + 1) % most = 0 ∧ r % most + 1 = most) ∨ (r + 1) % most = r % most + 1 := by
  have below := Nat.mod_lt r positive
  rw [← Nat.mod_add_mod]
  by_cases last : r % most + 1 = most
  · rw [last, Nat.mod_self]
    exact .inl ⟨rfl, rfl⟩
  · exact .inr (Nat.mod_eq_of_lt (by omega))

/-- A streak up to the end of a round began behind the last round in which another place came between. -/
theorem ends_le (weighted : Weighted w most) {i : Fin n} {k r : Nat}
    (ends : List.replicate (k + 1) i <:+ unrolled (cycled w most) (r + 1)) :
    behind w i ≤ r % most ∧ r % most < w i ∧ k ≤ r % most - max (behind w i) (ahead w i - 1) := by
  induction r generalizing k with
  | zero =>
    rw [unrolled_succ] at ends
    obtain ⟨last, single | ⟨-, empty⟩⟩ := suffix_round (round_nodup _) (cycled_ne_nil weighted 0) ends
    · obtain ⟨within, back⟩ := last_iff.mp last
      exact ⟨back, within, by omega⟩
    · obtain ⟨within, back⟩ := last_iff.mp last
      have empty : List.replicate k i = [] := List.suffix_nil.mp empty
      rw [List.replicate_eq_nil_iff] at empty
      exact ⟨back, within, by omega⟩
  | succ r ih =>
    rw [unrolled_succ] at ends
    obtain ⟨last, single | ⟨alone, before⟩⟩ := suffix_round (round_nodup _) (cycled_ne_nil weighted _) ends
    · obtain ⟨within, back⟩ := last_iff.mp last
      exact ⟨back, within, by omega⟩
    · obtain ⟨within, back⟩ := last_iff.mp last
      have head : (round w ((r + 1) % most)).head? = some i := by
        rw [alone]
        rfl
      have front := (head_iff.mp head).2
      refine ⟨back, within, ?_⟩
      cases k with
      | zero => exact Nat.zero_le _
      | succ k =>
        obtain ⟨earlier, -, streak⟩ := ih before
        rcases next_residue (most_pos weighted) r with ⟨turn, -⟩ | next
        · -- Other places are in the first round, so that no place is alone in it.
          have other := ahead_or_behind weighted i
          omega
        · omega

/-- No streak is longer, but for single elements. -/
theorem infix_le (weighted : Weighted w most) {i : Fin n} {k m : Nat}
    (inside : List.replicate k i <:+: unrolled (cycled w most) m) : k ≤ max 1 (longest w i) := by
  cases k with
  | zero => exact Nat.zero_le _
  | succ k =>
    obtain ⟨r, member, single | ⟨head, before⟩⟩ := infix_unrolled (fun r => round_nodup _) inside
    · omega
    · cases k with
      | zero => omega
      | succ k =>
        cases r with
        | zero =>
          have empty : List.replicate (k + 1) i = [] := List.suffix_nil.mp before
          simp at empty
        | succ r =>
          obtain ⟨heavier, front⟩ := head_iff.mp head
          have heaviest := weighted.bounded i
          obtain ⟨back, within, streak⟩ := ends_le weighted before
          unfold longest
          rcases next_residue (most_pos weighted) r with ⟨turn, last⟩ | next
          · rw [if_pos (by omega)]
            omega
          · split <;> omega

/-- From the round on in which no other place comes between, a streak grows with every round. -/
theorem streak_grows (weighted : Weighted w most) {i : Fin n} (t : Nat)
    (inside : max (behind w i) (ahead w i - 1) + t < w i) :
    List.replicate (t + 1) i <:+ unrolled (cycled w most) (max (behind w i) (ahead w i - 1) + t + 1) := by
  have heaviest := weighted.bounded i
  have within : (max (behind w i) (ahead w i - 1) + t) % most = max (behind w i) (ahead w i - 1) + t :=
    Nat.mod_eq_of_lt (by omega)
  rw [unrolled_succ, cycled, within]
  cases t with
  | zero =>
    have back : behind w i ≤ max (behind w i) (ahead w i - 1) + 0 := Nat.le_max_left _ _
    have last := last_iff.mpr ⟨inside, back⟩
    rw [← List.dropLast_append_getLast? i last, ← List.append_assoc]
    exact List.suffix_append _ _
  | succ t =>
    obtain ⟨start, before⟩ := streak_grows weighted (i := i) t (by omega)
    have front : ahead w i ≤ max (behind w i) (ahead w i - 1) + (t + 1) := by omega
    have back : behind w i ≤ max (behind w i) (ahead w i - 1) + (t + 1) := by omega
    rw [round_alone inside front back, List.replicate_succ', ← Nat.add_assoc, ← before, List.append_assoc]
    exact List.suffix_append _ _

/-- Where no place is in front of the one that is heavier than all behind it, its weight is the largest. -/
theorem first_heaviest (weighted : Weighted w most) {i : Fin n} (first : ahead w i = 0) (heavier : behind w i < w i) :
    w i = most := by
  obtain ⟨j, same⟩ := weighted.reached
  have heaviest := weighted.bounded i
  rcases lt_trichotomy j i with before | rfl | after
  · have := ahead_le_iff.mp (Nat.le_of_eq first) j before
    omega
  · exact same
  · have := behind_le_iff.mp (Nat.le_refl (behind w i)) j after
    omega

/-- The longest streak is reached. -/
theorem longest_reached (weighted : Weighted w most) (i : Fin n) :
    ∃ m, List.replicate (longest w i) i <:+: unrolled (cycled w most) m := by
  have heavy := weighted.positive i
  by_cases heavier : max (behind w i) (ahead w i - 1) < w i
  · obtain ⟨t, height⟩ : ∃ t, w i = max (behind w i) (ahead w i - 1) + t + 1 :=
      ⟨w i - max (behind w i) (ahead w i - 1) - 1, by omega⟩
    have ends := streak_grows weighted (i := i) t (by omega)
    rw [← height] at ends
    by_cases first : ahead w i = 0
    · -- The streak goes on in the first round of the next turn.
      have largest := first_heaviest weighted first (by omega)
      have head : (cycled w most (w i)).head? = some i := by
        rw [cycled, largest, Nat.mod_self]
        exact head_iff.mpr ⟨heavy, Nat.le_of_eq first⟩
      refine ⟨w i + 1, ?_⟩
      obtain ⟨front, whole⟩ := ends
      have length : longest w i = t + 1 + 1 := by
        rw [longest, if_pos first]
        omega
      rw [length, unrolled_succ, ← whole, List.eq_cons_of_mem_head? head, List.replicate_succ' (n := t + 1)]
      exact ⟨front, (cycled w most (w i)).tail, by simp⟩
    · refine ⟨w i, ?_⟩
      have length : longest w i = t + 1 := by
        rw [longest, if_neg first]
        omega
      rw [length]
      exact ends.isInfix
  · by_cases first : ahead w i = 0
    · have length : longest w i = 1 := by
        rw [longest, if_pos first]
        omega
      have head : (cycled w most 0).head? = some i := by
        rw [cycled, Nat.zero_mod]
        exact head_iff.mpr ⟨heavy, Nat.le_of_eq first⟩
      refine ⟨1, ?_⟩
      rw [length, unrolled_succ, List.eq_cons_of_mem_head? head]
      exact ⟨[], _, rfl⟩
    · refine ⟨0, ?_⟩
      have length : longest w i = 0 := by
        rw [longest, if_neg first]
        omega
      rw [length]
      exact List.nil_infix

/-! ## Cyclic reading of the rounds -/

theorem cycled_periodic (w : Fin n → Nat) (most : Nat) : Function.Periodic (cycled w most) most := by
  intro r
  rw [cycled, Nat.add_mod_right, cycled]

/-- One turn of the rounds lays the places out as `interleave` does. -/
theorem unrolled_cycled (w : Fin n → Nat) (most : Nat) :
    unrolled (cycled w most) most = interleave w most (List.finRange n) := by
  refine List.flatMap_congr fun r member => ?_
  rw [cycled, Nat.mod_eq_of_lt (List.mem_range.mp member), round]

/-- Read cyclically, the rounds have a place no more often in a row than a bound exactly when the
    longest streak is within it. -/
theorem streaks_le_iff (weighted : Weighted w most) (i : Fin n) {bound : Nat} (single : 1 ≤ bound) :
    (∀ start k, (∀ s < k, (interleave w most (List.finRange n))[(start + s) %
        (interleave w most (List.finRange n)).length]? = some i) → k ≤ bound) ↔ longest w i ≤ bound := by
  have positive := most_pos weighted
  have filled : interleave w most (List.finRange n) ≠ [] := by
    obtain ⟨j, member⟩ := List.exists_mem_of_ne_nil _ (cycled_ne_nil weighted 0)
    rw [← unrolled_cycled]
    exact List.ne_nil_of_mem (List.mem_flatMap.mpr ⟨0, List.mem_range.mpr positive, member⟩)
  have turns (m : Nat) := unrolled_turns (cycled_periodic w most) m
  rw [unrolled_cycled] at turns
  constructor
  · intro bounded
    obtain ⟨m, reached⟩ := longest_reached weighted i
    have inside := reached.trans (unrolled_of_le (cycled w most) (Nat.le_mul_of_pos_left m positive)).isInfix
    rw [turns] at inside
    obtain ⟨start, streak⟩ := (streak_turns_iff filled).mpr ⟨m, inside⟩
    exact bounded start _ streak
  · intro small start k streak
    obtain ⟨m, inside⟩ := (streak_turns_iff filled).mp ⟨start, streak⟩
    rw [← turns] at inside
    have := infix_le weighted inside
    omega

end

end

end Torana.Streaks
