import Mathlib.Data.List.Rotate
import Mathlib.Data.Nat.Periodic

/-!
Lists that are read cyclically. `interleave` lays out elements round by round, so
that each comes as often as its weight says; a list read from any position on is
its rotation, and a periodic reading takes the same elements in every window of
one period (`window_perm`).
-/
namespace Torana.Rotation
variable {α β : Type}

/-! ## Rounds -/

/-- Every round takes, in order, the elements whose weight exceeds the number of
    the round. -/
def interleave (weight : α → Nat) (rounds : Nat) (xs : List α) : List α :=
  (List.range rounds).flatMap fun i => xs.filter fun x => i < weight x

theorem interleave_succ (weight : α → Nat) (rounds : Nat) (xs : List α) :
    interleave weight (rounds + 1) xs = interleave weight rounds xs ++ xs.filter fun x => rounds < weight x := by
  simp [interleave, List.range_succ]

theorem interleave_map (f : β → α) (weight : α → Nat) (rounds : Nat) (xs : List β) :
    interleave weight rounds (xs.map f) = (interleave (fun x => weight (f x)) rounds xs).map f := by
  simp only [interleave, List.filter_map, List.map_flatMap]
  rfl

/-- One round more adds one for every element that is still in it. -/
theorem sum_min_succ (weight : α → Nat) (rounds : Nat) (xs : List α) :
    (xs.map fun x => min (rounds + 1) (weight x)).sum =
      (xs.map fun x => min rounds (weight x)).sum + xs.countP fun x => rounds < weight x := by
  induction xs with
  | nil => rfl
  | cons x rest ih =>
    simp only [List.map_cons, List.sum_cons, ih, List.countP_cons, decide_eq_true_eq]
    split <;> omega

theorem countP_interleave (p : α → Bool) (weight : α → Nat) (rounds : Nat) (xs : List α) :
    (interleave weight rounds xs).countP p = ((xs.filter p).map fun x => min rounds (weight x)).sum := by
  induction rounds with
  | zero => simp [interleave]
  | succ rounds ih =>
    rw [interleave_succ, List.countP_append, ih, sum_min_succ, List.countP_filter, List.countP_filter]
    congr 2
    funext x
    exact Bool.and_comm _ _

/-- When no weight exceeds the number of rounds, each element comes as often as it weighs. -/
theorem countP_interleave_all (p : α → Bool) {weight : α → Nat} {rounds : Nat} {xs : List α}
    (bounded : ∀ x ∈ xs, weight x ≤ rounds) :
    (interleave weight rounds xs).countP p = ((xs.filter p).map weight).sum := by
  rw [countP_interleave]
  congr 1
  refine List.map_congr_left fun x member => ?_
  have := bounded x (List.mem_filter.mp member).1
  omega

/-! ## Windows -/

theorem rotate_map_range (f : Nat → α) (n start : Nat) :
    ((List.range n).map f).rotate start = (List.range n).map fun i => f ((start + i) % n) := by
  refine List.ext_getElem (by simp) fun i _ _ => ?_
  simp [List.getElem_rotate, Nat.add_comm i start]

/-- A list read cyclically from a position is its rotation. -/
theorem map_range_getElem? (xs : List α) (start : Nat) :
    ((List.range xs.length).map fun i => xs[(start + i) % xs.length]?) = (xs.rotate start).map some := by
  refine List.ext_getElem (by simp) fun i small _ => ?_
  have positive : 0 < xs.length := by
    simp only [List.length_map, List.length_range] at small
    omega
  have inside : (start + i) % xs.length < xs.length := Nat.mod_lt _ positive
  simp [List.getElem_rotate, Nat.add_comm i start, List.getElem?_eq_getElem inside]

/-- Every window of one period reads the same elements. -/
theorem window_perm {f : Nat → α} {n : Nat} (periodic : Function.Periodic f n) (start : Nat) :
    ((List.range n).map fun i => f (start + i)).Perm ((List.range n).map f) := by
  have same : ((List.range n).map fun i => f (start + i)) = ((List.range n).map f).rotate start := by
    rw [rotate_map_range]
    exact List.map_congr_left fun i _ => (periodic.map_mod_nat (start + i)).symm
  rw [same]
  exact List.rotate_perm _ _

/-- A window of several periods reads every element as many times more often. -/
theorem countP_windows (p : α → Bool) {f : Nat → α} {n : Nat} (periodic : Function.Periodic f n) (start times : Nat) :
    ((List.range (n * times)).map fun i => f (start + i)).countP p = times * ((List.range n).map f).countP p := by
  induction times with
  | zero => simp
  | succ times ih =>
    have last := (window_perm periodic (start + n * times)).countP_eq p
    rw [Nat.mul_succ, List.range_add, List.map_append, List.countP_append, ih, List.map_map, Nat.succ_mul, ← last]
    simp only [Function.comp_def, Nat.add_assoc]

/-- A part of a list of consecutive values holds consecutive values. -/
theorem part_of_map_range {f : Nat → α} {before window after : List α} {n : Nat}
    (whole : before ++ window ++ after = (List.range n).map f) :
    window = (List.range window.length).map fun i => f (before.length + i) := by
  refine List.ext_getElem (by simp) fun i inside _ => ?_
  have here : (before ++ window ++ after)[before.length + i]? = some window[i] := by
    rw [List.append_assoc, List.getElem?_append_right (by omega), Nat.add_sub_cancel_left,
      List.getElem?_append_left inside, List.getElem?_eq_getElem inside]
  rw [whole, List.getElem?_map] at here
  obtain ⟨j, ranged, same⟩ := Option.map_eq_some_iff.mp here
  obtain ⟨inRange, index⟩ := List.getElem?_eq_some_iff.mp ranged
  rw [List.getElem_range] at index
  rw [List.getElem_map, List.getElem_range, index]
  exact same.symm

/-- An order of reading meets every place once exactly when, whatever stands there, it reads the
    whole list. -/
theorem order_perm_iff {order : List Nat} {n : Nat} (inside : ∀ p ∈ order, p < n) {name : Nat → α}
    (distinct : Function.Injective name) :
    (∀ xs : List α, xs.length = n → (order.filterMap fun p => xs[p]?).Perm xs) ↔ order.Perm (List.range n) := by
  constructor
  · intro reads
    have named : (order.filterMap fun p => ((List.range n).map name)[p]?) = order.map name := by
      rw [← List.filterMap_eq_map]
      refine List.filterMap_congr fun p member => ?_
      simp [inside p member]
    have whole := reads ((List.range n).map name) (by simp)
    rw [named] at whole
    exact (List.map_perm_map_iff distinct).mp whole
  · rintro perm xs rfl
    have ordered : (List.range xs.length).map (fun p => xs[p]?) = xs.map some := by
      refine List.ext_getElem (by simp) fun i _ _ => ?_
      simp
    have whole : (List.range xs.length).filterMap (fun p => xs[p]?) = xs := by
      have read := congrArg (List.filterMap id) ordered
      simpa [List.filterMap_map] using read
    have same := perm.filterMap fun p => xs[p]?
    rwa [whole] at same

/-! ## A counter that wraps -/

/-- The positions of a list of length `len` that are read from a counter value on, when
    the sums wrap at `size`. -/
def positions (size len start : Nat) : List Nat := (List.range len).map fun i => (start + i) % size % len

theorem positions_eq_rotate {size len start : Nat} (unwrapped : start + len ≤ size ∨ len ∣ size) :
    positions size len start = (List.range len).rotate start := by
  have plain := rotate_map_range id len start
  rw [List.map_id] at plain
  rw [plain]
  refine List.map_congr_left fun i small => ?_
  have small := List.mem_range.mp small
  rcases unwrapped with fits | divides
  · rw [Nat.mod_eq_of_lt (by omega : start + i < size)]
    rfl
  · exact Nat.mod_mod_of_dvd (start + i) divides

/-- After a wrap in the middle some position is read twice and another one not at all,
    unless whole turns of the list fit the counter. -/
theorem positions_perm_iff {size len start : Nat} (positive : 0 < len) (below : start < size) :
    (positions size len start).Perm (List.range len) ↔ start + len ≤ size ∨ len ∣ size := by
  constructor
  · intro perm
    by_contra wrapped
    obtain ⟨beyond, indivisible⟩ := not_or.mp wrapped
    have covered : ∀ r < len, ∃ i < len, (start + i) % size % len = r := by
      intro r small
      obtain ⟨i, member, same⟩ := List.mem_map.mp (perm.symm.subset (List.mem_range.mpr small))
      exact ⟨i, List.mem_range.mp member, same⟩
    obtain ⟨i, small, last⟩ := covered (len - 1) (by omega)
    have different : size ≠ len := fun same => indivisible (same ▸ Nat.dvd_refl _)
    by_cases short : size < len
    · have := Nat.mod_le ((start + i) % size) len
      have := Nat.mod_lt (start + i) (by omega : 0 < size)
      omega
    · have divided := Nat.div_add_mod size len
      have rest := Nat.mod_lt size positive
      have nonzero : size % len ≠ 0 := fun zero => indivisible (Nat.dvd_of_mod_eq_zero zero)
      by_cases early : size % len ≤ size - start
      · -- position 0 is read before the wrap and right after it
        have before : (start + (size - start - size % len)) % size % len = 0 := by
          have sum : start + (size - start - size % len) = len * (size / len) := by omega
          rw [sum, Nat.mod_eq_of_lt (by omega : len * (size / len) < size), Nat.mul_mod_right]
        have wrap : (start + (size - start)) % size % len = 0 := by
          rw [show start + (size - start) = size by omega, Nat.mod_self, Nat.zero_mod]
        have distinct := (perm.nodup_iff.mpr List.nodup_range)
        have same := List.inj_on_of_nodup_map distinct (List.mem_range.mpr (by omega : size - start - size % len < len))
          (List.mem_range.mpr (by omega : size - start < len)) (before.trans wrap.symm)
        omega
      · -- the last position is read neither before the wrap nor after it
        by_cases before : start + i < size
        · have sum : start + i = (size % len - (size - (start + i))) + len * (size / len) := by omega
          rw [Nat.mod_eq_of_lt before, sum, Nat.add_mul_mod_self_left, Nat.mod_eq_of_lt (by omega)] at last
          omega
        · rw [show start + i = (start + i - size) + size by omega, Nat.add_mod_right,
            Nat.mod_eq_of_lt (by omega : start + i - size < size), Nat.mod_eq_of_lt (by omega)] at last
          omega
  · intro unwrapped
    rw [positions_eq_rotate unwrapped]
    exact List.rotate_perm _ _

/-- The next value of the counter is one position further, except at a wrap. -/
theorem next_position_iff {size len start : Nat} (below : start < size) :
    (start + 1) % size % len = (start % len + 1) % len ↔ start + 1 < size ∨ len ∣ size := by
  rw [Nat.mod_add_mod]
  by_cases last : start + 1 = size
  · subst last
    rw [Nat.mod_self, Nat.zero_mod, Nat.dvd_iff_mod_eq_zero]
    omega
  · have small : start + 1 < size := by omega
    simp [Nat.mod_eq_of_lt small, small]

end Torana.Rotation
