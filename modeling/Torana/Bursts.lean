import Torana.Schedule
import Torana.Streaks
import Mathlib.Algebra.Order.Floor.Div

/-!
How often in a row the schedule of a balancer picks one upstream. The rounds interleave the
upstreams as long as others are left in them, and the rest of the largest weight comes in
one run, so that the runs are short only where the weights are close to each other or one of
them is large against all others.
-/
namespace Torana.Bursts
open Upstream (LoadBalancer UpstreamPool)
open Prog (Runs)
open Schedule (share entry slots)
open Streaks (Weighted ahead behind longest)

/-- The address that a balancer picks at one position of its schedule, repeated round after round. -/
def picked (lb : LoadBalancer) (position : Nat) : Option String :=
  (lb.upstreams[position % lb.upstreams.length]?).map (·.addr)

/-- A call of `next` that draws this value gives an upstream at the address. -/
def Gives (lb : LoadBalancer) (bits drawn : Nat) (addr : String) : Prop :=
  ∃ u, Runs (lb.next bits) [⟨.fetchAdd lb.counter bits, drawn⟩] (.ret (some u)) ∧ u.addr = addr

/-- The calls of `next` that draw one value after the other give the upstream at one place of the
    list no more often in a row. -/
def InRowAtMost (bound : Nat) (upstreams : List UpstreamPool) (counter : Nat) (i : Fin upstreams.length) : Prop :=
  ∀ bits start k, (∀ s < k, Gives (LoadBalancer.new upstreams counter) bits (start + s) (upstreams.get i).addr) →
    k ≤ bound

/-- What the other upstreams weigh together. -/
def others (upstreams : List UpstreamPool) (i : Fin upstreams.length) : Nat :=
  (Finset.univ.erase i).sum (share upstreams)

/-- A call of `next` gives what is at the position that it drew. -/
theorem gives_iff {lb : LoadBalancer} (nonempty : lb.upstreams ≠ []) {bits drawn : Nat} {addr : String} :
    Gives lb bits drawn addr ↔ picked lb drawn = some addr := by
  rw [picked, Option.map_eq_some_iff]
  constructor
  · rintro ⟨u, run, same⟩
    obtain ⟨start, drew, here⟩ := (Schedule.next_runs nonempty).mp run
    cases drew
    exact ⟨u, here.symm, same⟩
  · rintro ⟨u, here, same⟩
    exact ⟨u, (Schedule.next_runs nonempty).mpr ⟨drawn, rfl, here.symm⟩, same⟩

section
variable {upstreams : List UpstreamPool}

theorem share_pos (i : Fin upstreams.length) : 1 ≤ share upstreams i := by
  have listed : entry upstreams i ∈ Upstream.reduced upstreams := by
    rw [Schedule.reduced_eq]
    exact List.mem_map_of_mem (List.mem_finRange i)
  exact Upstream.reduced_weight_pos listed

/-- The rounds of the schedule are those of its reduced weights. -/
theorem weighted (several : 2 ≤ upstreams.length) :
    Weighted (share upstreams) (((Upstream.reduced upstreams).map (·.weight)).max?.getD 1) := by
  have weights : (Upstream.reduced upstreams).map (·.weight) =
      (List.finRange upstreams.length).map (share upstreams) := by
    rw [Schedule.reduced_eq, List.map_map]
    rfl
  rw [weights]
  refine ⟨several, share_pos, ?_, ?_⟩
  · intro j
    exact Schedule.weight_le_max (List.mem_map_of_mem (List.mem_finRange j))
  · cases largest : ((List.finRange upstreams.length).map (share upstreams)).max? with
    | none =>
      rw [List.max?_eq_none_iff, List.map_eq_nil_iff, List.finRange_eq_nil_iff] at largest
      omega
    | some most =>
      obtain ⟨j, -, same⟩ := List.mem_map.mp (List.max?_eq_some_iff.mp largest).1
      exact ⟨j, same⟩

/-- Under distinct addresses the picked one tells the slot. -/
theorem picked_iff (distinct : (upstreams.map (·.addr)).Nodup) (counter position : Nat) (i : Fin upstreams.length) :
    picked (LoadBalancer.new upstreams counter) position = some (upstreams.get i).addr ↔
      (slots upstreams)[position % (slots upstreams).length]? = some i := by
  rw [picked, Schedule.schedule_eq, List.length_map, List.getElem?_map, Option.map_map, Option.map_eq_some_iff]
  constructor
  · rintro ⟨j, slot, same⟩
    have upstream : upstreams.get j = upstreams.get i :=
      List.inj_on_of_nodup_map distinct (List.get_mem upstreams j) (List.get_mem upstreams i) same
    rw [slot, List.nodup_iff_injective_get.mp (List.Nodup.of_map _ distinct) upstream]
  · intro slot
    exact ⟨i, slot, rfl⟩

/-- Nothing is in front of the first place alone. -/
theorem ahead_eq_zero_iff (i : Fin upstreams.length) : ahead (share upstreams) i = 0 ↔ i.val = 0 := by
  rw [← Nat.le_zero, Streaks.ahead_le_iff]
  constructor
  · intro lighter
    by_contra later
    have heavy := share_pos (⟨0, Nat.lt_of_le_of_lt (Nat.zero_le _) i.isLt⟩ : Fin upstreams.length)
    have light := lighter ⟨0, Nat.lt_of_le_of_lt (Nat.zero_le _) i.isLt⟩ (Nat.pos_of_ne_zero later)
    omega
  · intro first j before
    exact absurd before (by rw [Fin.lt_def, first]; exact Nat.not_lt_zero _)

end

/-- What an upstream weighs over all others together, rounded up, and once more bounds how often it is
    picked in a row exactly when its weight exceeds no more than that what any other weighs: the
    largest weight behind it and the largest one in front of it less one. For the first of the list
    the once more is left out. -/
theorem in_row_iff (upstreams : List UpstreamPool) (counter : Nat) (several : 2 ≤ upstreams.length)
    (distinct : (upstreams.map (·.addr)).Nodup) (i : Fin upstreams.length) :
    InRowAtMost (share upstreams i ⌈/⌉ others upstreams i + 1) upstreams counter i ↔
      share upstreams i ≤ max (behind (share upstreams) i) (ahead (share upstreams) i - 1) +
        share upstreams i ⌈/⌉ others upstreams i + if i.val = 0 then 0 else 1 := by
  have bounded :=
    Streaks.streaks_le_iff (weighted several) i (Nat.le_add_left 1 (share upstreams i ⌈/⌉ others upstreams i))
  have rows : InRowAtMost (share upstreams i ⌈/⌉ others upstreams i + 1) upstreams counter i ↔
      longest (share upstreams) i ≤ share upstreams i ⌈/⌉ others upstreams i + 1 := by
    have filled := Schedule.schedule_ne_nil (List.ne_nil_of_length_pos (by omega : 0 < upstreams.length)) counter
    rw [← bounded]
    simp only [InRowAtMost, gives_iff filled, picked_iff distinct]
    exact ⟨fun rows => rows 0, fun rows _ => rows⟩
  rw [rows, longest]
  simp only [ahead_eq_zero_iff]
  split <;> omega

/-! ## Ten parts to three -/

/-- Three parts to one are in bounds. -/
theorem in_row_iff_uneven : InRowAtMost 4 Schedule.uneven 0 ⟨0, by decide⟩ := by
  have bound : share Schedule.uneven ⟨0, by decide⟩ ⌈/⌉ others Schedule.uneven ⟨0, by decide⟩ + 1 = 4 := by decide
  rw [← bound]
  exact (in_row_iff Schedule.uneven 0 (by decide) (by decide) ⟨0, by decide⟩).mpr (by decide)

def tenToThree : List UpstreamPool := [⟨"http://10.0.0.1:80", 10⟩, ⟨"http://10.0.0.2:80", 3⟩]

/-- Of two upstreams with weights `10` and `3` the first is picked eight times in a row. -/
theorem long_run :
    2 ≤ tenToThree.length ∧ (tenToThree.map (·.addr)).Nodup ∧
      share tenToThree ⟨0, by decide⟩ ⌈/⌉ others tenToThree ⟨0, by decide⟩ + 1 = 5 ∧
      (∀ s < 8, picked (LoadBalancer.new tenToThree 0) (6 + s) = some "http://10.0.0.1:80") ∧
      ¬ InRowAtMost (share tenToThree ⟨0, by decide⟩ ⌈/⌉ others tenToThree ⟨0, by decide⟩ + 1) tenToThree 0
        ⟨0, by decide⟩ := by
  have bound : share tenToThree ⟨0, by decide⟩ ⌈/⌉ others tenToThree ⟨0, by decide⟩ + 1 = 5 := by decide
  have run : ∀ s < 8, picked (LoadBalancer.new tenToThree 0) (6 + s) = some "http://10.0.0.1:80" := by decide
  refine ⟨by decide, by decide, bound, run, ?_⟩
  intro short
  have small := short 64 6 8 fun s before => (gives_iff (by decide)).mpr (run s before)
  omega

end Torana.Bursts
