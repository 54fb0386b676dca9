import Torana.Counter
import Torana.Samples

/-!
The counter at its wrap. The source adds the loop index to the value that it drew:
with overflow checks the sum panics where it does not fit, without them it wraps,
and `candidates` follows the wrap. Whether a pass still visits every slot depends on
whether the length of the schedule divides the range of the counter.
-/
namespace Torana.WrapAround
open Upstream (LoadBalancer UpstreamPool)
open Rotation (positions)

/-- The candidates of a pass stand at the positions that the counter value selects. -/
theorem candidates_positions (lb : LoadBalancer) (bits start : Nat) :
    lb.candidates bits start =
      (positions (2 ^ bits) lb.upstreams.length start).filterMap fun position => lb.upstreams[position]? := by
  rw [LoadBalancer.candidates, positions, List.filterMap_map]
  rfl

/-! ## What balancing relies on -/

/-- No sum of a pass overflows. -/
def Fits (lb : LoadBalancer) (bits start : Nat) : Prop := ∀ i < lb.upstreams.length, start + i < 2 ^ bits

/-- A pass visits every slot of the schedule once: whatever upstreams stand in the slots, its
    candidates are all of them. -/
def Covers (lb : LoadBalancer) (bits start : Nat) : Prop :=
  ∀ upstreams : List UpstreamPool, upstreams.length = lb.upstreams.length →
    (LoadBalancer.candidates ⟨upstreams, lb.counter⟩ bits start).Perm upstreams

/-- The call after one that drew this value starts one position further. -/
def Advances (lb : LoadBalancer) (bits start : Nat) : Prop :=
  ∀ (crates : Crates) (o : Outside) (t : Tid) (s s' : Store),
    perform crates o t (.fetchAdd lb.counter bits) s = some (start, s') →
      s'.counters lb.counter % lb.upstreams.length = (start % lb.upstreams.length + 1) % lb.upstreams.length

/-- Balancing works at this value of the counter. -/
structure Survives (lb : LoadBalancer) (bits start : Nat) : Prop where
  fits : Fits lb bits start
  covers : Covers lb bits start
  advances : Advances lb bits start

section
variable {lb : LoadBalancer} {bits start : Nat}

theorem fits_iff (nonempty : lb.upstreams ≠ []) : Fits lb bits start ↔ start + lb.upstreams.length ≤ 2 ^ bits := by
  have positive : 0 < lb.upstreams.length := List.length_pos_iff.mpr nonempty
  constructor
  · intro fits
    have last := fits (lb.upstreams.length - 1) (by omega)
    omega
  · intro small i inside
    omega

theorem covers_positions (nonempty : lb.upstreams ≠ []) :
    Covers lb bits start ↔
      (positions (2 ^ bits) lb.upstreams.length start).Perm (List.range lb.upstreams.length) := by
  have inside : ∀ p ∈ positions (2 ^ bits) lb.upstreams.length start, p < lb.upstreams.length := by
    intro p member
    obtain ⟨i, -, rfl⟩ := List.mem_map.mp member
    exact Nat.mod_lt _ (List.length_pos_iff.mpr nonempty)
  have distinct : Function.Injective fun weight => UpstreamPool.mk "" weight := by
    intro weight weight' same
    cases same
    rfl
  rw [← Rotation.order_perm_iff inside distinct, Covers]
  refine forall₂_congr fun upstreams same => ?_
  rw [candidates_positions, same]

theorem covers_iff (nonempty : lb.upstreams ≠ []) (below : start < 2 ^ bits) :
    Covers lb bits start ↔ start + lb.upstreams.length ≤ 2 ^ bits ∨ lb.upstreams.length ∣ 2 ^ bits := by
  rw [covers_positions nonempty]
  exact Rotation.positions_perm_iff (List.length_pos_iff.mpr nonempty) below

theorem advances_iff (below : start < 2 ^ bits) :
    Advances lb bits start ↔ start + 1 < 2 ^ bits ∨ lb.upstreams.length ∣ 2 ^ bits := by
  rw [← Rotation.next_position_iff below]
  constructor
  · intro advances
    let s : Store := { Samples.store (Samples.config []) Table.empty with counters := fun _ => start }
    have done : perform Samples.unreloaded Samples.outside .main (.fetchAdd lb.counter bits) s =
        some (start, { s with counters := Function.update s.counters lb.counter ((start + 1) % 2 ^ bits) }) := rfl
    simpa using advances _ _ _ _ _ done
  · intro same crates o t s s' done
    rw [(Counter.perform_fetchAdd done).2]
    exact same

end

/-- Balancing works as long as all sums of a pass fit the counter. A build without
    overflow checks also visits every slot, and goes on at the next one, at every value
    when the length of the schedule divides the range of the counter, and at no value
    whose pass crosses the wrap otherwise. -/
theorem survives_iff (lb : LoadBalancer) (bits start : Nat) (nonempty : lb.upstreams ≠ []) (below : start < 2 ^ bits) :
    (Survives lb bits start ↔ start + lb.upstreams.length ≤ 2 ^ bits) ∧
      (Covers lb bits start ↔ start + lb.upstreams.length ≤ 2 ^ bits ∨ lb.upstreams.length ∣ 2 ^ bits) ∧
      (Advances lb bits start ↔ start + 1 < 2 ^ bits ∨ lb.upstreams.length ∣ 2 ^ bits) := by
  refine ⟨⟨fun survives => (fits_iff nonempty).mp survives.fits, fun small => ?_⟩, covers_iff nonempty below,
    advances_iff below⟩
  refine ⟨(fits_iff nonempty).mpr small, (covers_iff nonempty below).mpr (.inl small), ?_⟩
  rw [advances_iff below]
  by_cases single : lb.upstreams.length = 1
  · rw [single]
    exact .inr (Nat.one_dvd _)
  · have := List.length_pos_iff.mpr nonempty
    exact .inl (by omega)

/-! ## The last value of a 32-bit counter -/

def thirds : LoadBalancer :=
  LoadBalancer.new [⟨"http://10.0.0.1:80", 1⟩, ⟨"http://10.0.0.2:80", 1⟩, ⟨"http://10.0.0.3:80", 1⟩] 0

theorem survives_iff_thirds :
    (Survives thirds 32 7 ↔ 7 + thirds.upstreams.length ≤ 2 ^ 32) ∧
      (Covers thirds 32 7 ↔ 7 + thirds.upstreams.length ≤ 2 ^ 32 ∨ thirds.upstreams.length ∣ 2 ^ 32) ∧
      (Advances thirds 32 7 ↔ 7 + 1 < 2 ^ 32 ∨ thirds.upstreams.length ∣ 2 ^ 32) :=
  survives_iff thirds 32 7 (by decide) (by decide)

/-- The sum overflows; where it wraps, the pass visits the first slot twice and never
    the last one, and the next call starts at the first slot again. -/
theorem last_value_skips :
    ¬ Survives thirds 32 (2 ^ 32 - 1) ∧
      (thirds.candidates 32 (2 ^ 32 - 1)).map (·.addr) =
        ["http://10.0.0.1:80", "http://10.0.0.1:80", "http://10.0.0.2:80"] ∧
      ¬ Covers thirds 32 (2 ^ 32 - 1) ∧ ¬ Advances thirds 32 (2 ^ 32 - 1) := by
  refine ⟨fun survives => ?_, by decide +kernel, ?_, ?_⟩
  · exact absurd (survives.fits 1 (by decide)) (by decide)
  · rw [covers_positions (by decide)]
    decide +kernel
  · rw [advances_iff (by decide)]
    decide +kernel

end Torana.WrapAround
