import Torana.Selection
import Mathlib.Algebra.BigOperators.Group.Finset.Basic

/-!
How the calls of `next_healthy` are spread while some upstreams are down. A slot of
an unhealthy upstream falls to the next healthy slot of the schedule, so an upstream
gets its own share and whatever slots it inherits from those right before its own.
-/
namespace Torana.Survivors
open Upstream (LoadBalancer UpstreamPool)
open Prog (Runs)
open Schedule (share entry slots)
open Selection (ReadBy)

section
variable (upstreams : List UpstreamPool) (health : String → Bool)

/-- Whether the upstream at one place of the list is healthy. -/
def up (j : Fin upstreams.length) : Bool := health (upstreams.get j).addr

/-- The place of the upstream that gets the calls of one counter value. -/
def heir (start : Nat) : Option (Fin upstreams.length) :=
  ((slots upstreams).rotate start).find? (up upstreams health)

/-- How many slots of unhealthy upstreams fall to the upstream at one place. -/
def inherited (j : Fin upstreams.length) : Nat :=
  (List.range (slots upstreams).length).countP fun position =>
    ((slots upstreams)[position]?.any fun i => !up upstreams health i) && heir upstreams health position = some j

/-- The sum of the reduced weights of the healthy upstreams. -/
def healthyWeight : Nat := (((List.finRange upstreams.length).filter (up upstreams health)).map (share upstreams)).sum

end

section
variable {upstreams : List UpstreamPool} {health : String → Bool}

theorem heir_periodic (upstreams : List UpstreamPool) (health : String → Bool) :
    Function.Periodic (heir upstreams health) (slots upstreams).length := by
  intro start
  rw [heir, ← List.rotate_mod, Nat.add_mod_right, List.rotate_mod]
  rfl

theorem head?_slots {position : Nat} (inside : position < (slots upstreams).length) :
    ((slots upstreams).rotate position).head? = (slots upstreams)[position]? := List.head?_rotate inside

/-- A slot of a healthy upstream is its own. -/
theorem heir_own {position : Nat} {j : Fin upstreams.length} (slot : (slots upstreams)[position]? = some j)
    (healthy : up upstreams health j = true) : heir upstreams health position = some j := by
  obtain ⟨inside, -⟩ := List.getElem?_eq_some_iff.mp slot
  rw [← head?_slots inside] at slot
  obtain ⟨rest, order⟩ := List.head?_eq_some_iff.mp slot
  rw [heir, order, List.find?_cons_of_pos healthy]

theorem heir_up {start : Nat} {j : Fin upstreams.length} (inherits : heir upstreams health start = some j) :
    up upstreams health j = true := List.find?_some inherits

theorem map_range_slots : (List.range (slots upstreams).length).map (fun position => (slots upstreams)[position]?) =
    (slots upstreams).map some := by
  refine List.ext_getElem (by simp) fun i _ _ => ?_
  simp

/-- Over one schedule a healthy upstream gets its own slots and those that it inherits. -/
theorem count_heir {j : Fin upstreams.length} (healthy : up upstreams health j = true) :
    ((List.range (slots upstreams).length).map (heir upstreams health)).count (some j) =
      share upstreams j + inherited upstreams health j := by
  have own : (List.range (slots upstreams).length).countP (fun position => (slots upstreams)[position]? == some j) =
      share upstreams j := by
    rw [← Schedule.count_slots, ← List.count_map_of_injective _ some (Option.some_injective _) j, ← map_range_slots,
      List.count, List.countP_map]
    rfl
  rw [← own, inherited, List.count, List.countP_map]
  -- each slot that falls to `j` is its own or one of an unhealthy upstream
  rw [List.countP_eq_countP_filter_add _ _ fun position => (slots upstreams)[position]? == some j, List.countP_filter,
    List.countP_filter]
  congr 1
  · refine List.countP_congr fun position _ => ?_
    simp only [Function.comp_apply, Bool.and_eq_true, beq_iff_eq]
    exact ⟨fun both => both.2, fun slot => ⟨heir_own slot healthy, slot⟩⟩
  · refine List.countP_congr fun position member => ?_
    have inside := List.mem_range.mp member
    obtain ⟨i, slot⟩ : ∃ i, (slots upstreams)[position]? = some i := ⟨_, List.getElem?_eq_getElem inside⟩
    simp only [Function.comp_apply, Bool.and_eq_true, beq_iff_eq, Bool.not_eq_true', beq_eq_false_iff_ne, slot,
      Option.any_some, decide_eq_true_eq, ne_eq, Option.some.injEq]
    constructor
    · rintro ⟨falls, other⟩
      refine ⟨?_, falls⟩
      by_contra standing
      rw [Bool.not_eq_false] at standing
      rw [heir_own slot standing] at falls
      exact other (Option.some.inj falls)
    · rintro ⟨down, falls⟩
      refine ⟨falls, ?_⟩
      rintro rfl
      rw [healthy] at down
      cases down

/-- Every upstream has a slot. -/
theorem mem_slots (j : Fin upstreams.length) : j ∈ slots upstreams := by
  have member : entry upstreams j ∈ Upstream.reduced upstreams := by
    rw [Schedule.reduced_eq]
    exact List.mem_map.mpr ⟨j, List.mem_finRange j, rfl⟩
  have positive : 1 ≤ share upstreams j := Upstream.reduced_weight_pos member
  rw [← List.count_pos_iff, Schedule.count_slots]
  exact positive

theorem heir_isSome (survivor : ∃ u ∈ upstreams, health u.addr = true) (start : Nat) :
    ∃ j, heir upstreams health start = some j := by
  obtain ⟨u, member, healthy⟩ := survivor
  obtain ⟨i, inside, rfl⟩ := List.getElem_of_mem member
  rw [← Option.isSome_iff_exists, heir, List.find?_isSome]
  exact ⟨⟨i, inside⟩, List.mem_rotate.mpr (mem_slots _), healthy⟩

/-- The slots of the healthy upstreams and those that they inherit are the whole schedule. -/
theorem sum_heir (survivor : ∃ u ∈ upstreams, health u.addr = true) :
    ∑ j : Fin upstreams.length, (if up upstreams health j then share upstreams j + inherited upstreams health j else 0) =
      (slots upstreams).length := by
  have counted : ∀ j : Fin upstreams.length,
      (if up upstreams health j then share upstreams j + inherited upstreams health j else 0) =
        Multiset.count j
          (((List.range (slots upstreams).length).filterMap (heir upstreams health) : List _) : Multiset _) := by
    intro j
    have values : ((List.range (slots upstreams).length).filterMap (heir upstreams health)).count j =
        ((List.range (slots upstreams).length).map (heir upstreams health)).count (some j) := by
      rw [List.count_filterMap, List.count, List.countP_map]
      rfl
    rw [Multiset.coe_count, values]
    split
    · rename_i healthy
      exact (count_heir healthy).symm
    · rename_i down
      symm
      rw [List.count_eq_zero]
      intro member
      obtain ⟨position, -, falls⟩ := List.mem_map.mp member
      exact down (heir_up falls)
  rw [Finset.sum_congr rfl fun j _ => counted j, Multiset.sum_count_eq_card fun j _ => Finset.mem_univ j,
    Multiset.coe_card]
  have every : ((List.range (slots upstreams).length).filterMap (heir upstreams health)).length =
      (List.range (slots upstreams).length).length := by
    rw [List.length_filterMap_eq_countP, List.countP_eq_length]
    intro position _
    obtain ⟨j, falls⟩ := heir_isSome survivor position
    simp [falls]
  rw [every, List.length_range]

/-! ## Consecutive calls -/

/-- A call returns the upstream that its counter value falls to. -/
theorem choice_heir (survivor : ∃ u ∈ upstreams, health u.addr = true) {counter bits start : Nat} {reads : History}
    {choice : Option UpstreamPool} (fits : start + (slots upstreams).length ≤ 2 ^ bits) (stable : ReadBy health reads)
    (run : Runs ((LoadBalancer.new upstreams counter).nextHealthy bits [])
      (⟨.fetchAdd counter bits, start⟩ :: reads) (.ret choice)) :
    ∃ j, heir upstreams health start = some j ∧ choice = some (entry upstreams j) := by
  obtain ⟨j, falls⟩ := heir_isSome survivor start
  refine ⟨j, falls, ?_⟩
  have schedule := Schedule.schedule_eq upstreams counter
  have nonempty : (LoadBalancer.new upstreams counter).upstreams ≠ [] := by
    rw [schedule]
    exact fun empty => List.not_mem_nil (List.map_eq_nil_iff.mp empty ▸ mem_slots j)
  have size : (LoadBalancer.new upstreams counter).upstreams.length = (slots upstreams).length := by
    rw [schedule, List.length_map]
  have chooses := (Selection.nextHealthy_chooses nonempty (.inl (by rw [size]; exact fits))).mp run
  rw [Selection.chooses_stable stable chooses, Selection.admitted_nil, schedule, ← List.map_rotate, List.find?_map]
  have first : ((slots upstreams).rotate start).find? ((fun u => health u.addr) ∘ entry upstreams) = some j := falls
  rw [first]
  rfl

variable (upstreams health)

/-- In as many calls with consecutive counter values, under a registry that does not
    change, every healthy upstream is returned as often as `often` says. -/
def Spreads (counter bits calls : Nat) (often : Fin upstreams.length → Nat) : Prop :=
  ∀ (start : Nat) (reads : Nat → History) (choices : Nat → Option UpstreamPool),
    (∀ k < calls, start + k + (LoadBalancer.new upstreams counter).upstreams.length ≤ 2 ^ bits ∧ ReadBy health (reads k) ∧
      Runs ((LoadBalancer.new upstreams counter).nextHealthy bits [])
        (⟨.fetchAdd counter bits, start + k⟩ :: reads k) (.ret (choices k))) →
    ∀ j : Fin upstreams.length, health (upstreams.get j).addr = true →
      ((List.range calls).map fun k => (choices k).map (·.addr)).count (some (upstreams.get j).addr) = often j

variable {upstreams health}

theorem addr_injective (distinct : (upstreams.map (·.addr)).Nodup) :
    Function.Injective fun j : Fin upstreams.length => some (upstreams.get j).addr := by
  intro i j same
  have injective := List.nodup_iff_injective_get.mp distinct
  have index : (⟨i, by simp⟩ : Fin (upstreams.map (·.addr)).length) = ⟨j, by simp⟩ := injective (by simpa using same)
  exact Fin.ext (Fin.mk.inj index)

/-- What the calls return is decided by the slots that their counter values fall to. -/
theorem choices_heir (survivor : ∃ u ∈ upstreams, health u.addr = true) {counter bits calls start : Nat}
    {reads : Nat → History} {choices : Nat → Option UpstreamPool}
    (ran : ∀ k < calls, start + k + (LoadBalancer.new upstreams counter).upstreams.length ≤ 2 ^ bits ∧
      ReadBy health (reads k) ∧ Runs ((LoadBalancer.new upstreams counter).nextHealthy bits [])
        (⟨.fetchAdd counter bits, start + k⟩ :: reads k) (.ret (choices k))) :
    ((List.range calls).map fun k => (choices k).map (·.addr)) =
      (List.range calls).map fun k => (heir upstreams health (start + k)).map fun j => (upstreams.get j).addr := by
  refine List.map_congr_left fun k member => ?_
  obtain ⟨fits, stable, run⟩ := ran k (List.mem_range.mp member)
  rw [Schedule.schedule_eq, List.length_map] at fits
  obtain ⟨j, falls, same⟩ := choice_heir survivor fits stable run
  rw [falls, same]
  rfl

end

/-- Over as many schedules as the healthy weights sum up to, every healthy upstream is
    returned that many times for each slot of its own and for each slot of an unhealthy
    upstream that falls to it. Together these are all the slots. -/
theorem spreads_by_slots (upstreams : List UpstreamPool) (health : String → Bool) (counter bits : Nat)
    (distinct : (upstreams.map (·.addr)).Nodup) (survivor : ∃ u ∈ upstreams, health u.addr = true) :
    Spreads upstreams health counter bits
      ((LoadBalancer.new upstreams counter).upstreams.length * healthyWeight upstreams health)
      (fun j => healthyWeight upstreams health * (share upstreams j + inherited upstreams health j)) ∧
    ∑ j : Fin upstreams.length,
        (if health (upstreams.get j).addr then share upstreams j + inherited upstreams health j else 0) =
      (LoadBalancer.new upstreams counter).upstreams.length := by
  have size : (LoadBalancer.new upstreams counter).upstreams.length = (slots upstreams).length := by
    rw [Schedule.schedule_eq, List.length_map]
  refine ⟨?_, by rw [size]; exact sum_heir survivor⟩
  intro start reads choices ran j healthy
  show _ = healthyWeight upstreams health * (share upstreams j + inherited upstreams health j)
  rw [choices_heir survivor ran, size]
  have windows := Rotation.countP_windows (· == some j) (heir_periodic upstreams health) start
    (healthyWeight upstreams health)
  rw [← count_heir (j := j) healthy, List.count, List.count, ← windows, List.countP_map, List.countP_map]
  refine List.countP_congr fun k _ => ?_
  obtain ⟨i, falls⟩ := heir_isSome survivor (start + k)
  simp only [Function.comp_apply, falls, Option.map_some, beq_iff_eq, Option.some.injEq]
  constructor
  · intro same
    exact addr_injective distinct (congrArg some same)
  · rintro rfl
    rfl

/-! ## Three equal upstreams, the first of which is down -/

def equals : List UpstreamPool :=
  [⟨"http://10.0.0.1:80", 1⟩, ⟨"http://10.0.0.2:80", 1⟩, ⟨"http://10.0.0.3:80", 1⟩]

def firstDown (addr : String) : Bool := addr ≠ "http://10.0.0.1:80"

theorem spreads_equals :
    Spreads equals firstDown 0 64 6 (fun j => 2 * (share equals j + inherited equals firstDown j)) ∧
      ∑ j : Fin equals.length,
        (if firstDown (equals.get j).addr then share equals j + inherited equals firstDown j else 0) = 3 :=
  spreads_by_slots equals firstDown 0 64 (by decide) (by decide)

/-- All slots of the first upstream fall to the second one, which gets twice as many
    calls as the third. -/
theorem neighbour_doubled :
    (equals.map (·.addr)).Nodup ∧ (∃ u ∈ equals, firstDown u.addr = true) ∧
      ¬ Spreads equals firstDown 0 64
        ((LoadBalancer.new equals 0).upstreams.length * healthyWeight equals firstDown)
        (fun j => (LoadBalancer.new equals 0).upstreams.length * share equals j) := by
  have survivor : ∃ u ∈ equals, firstDown u.addr = true := by decide
  refine ⟨by decide, survivor, fun spreads => ?_⟩
  choose reads choices stable chooses using fun k =>
    Selection.chooses_exists firstDown [] ((LoadBalancer.new equals 0).upstreams.rotate (0 + k))
  have ran : ∀ k < (LoadBalancer.new equals 0).upstreams.length * healthyWeight equals firstDown,
      0 + k + (LoadBalancer.new equals 0).upstreams.length ≤ 2 ^ 64 ∧ ReadBy firstDown (reads k) ∧
        Runs ((LoadBalancer.new equals 0).nextHealthy 64 [])
          (⟨.fetchAdd 0 64, 0 + k⟩ :: reads k) (.ret (choices k)) := by
    intro k small
    have small : k < 6 := small
    have fits : 0 + k + (LoadBalancer.new equals 0).upstreams.length ≤ 2 ^ 64 := by
      rw [show (LoadBalancer.new equals 0).upstreams.length = 3 by decide]
      omega
    exact ⟨fits, stable k, (Selection.nextHealthy_chooses (by decide) (.inl fits)).mpr (chooses k)⟩
  have often := spreads 0 reads choices ran ⟨1, by decide⟩ (by decide)
  rw [choices_heir survivor ran] at often
  revert often
  decide

end Torana.Survivors
