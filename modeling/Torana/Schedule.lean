import Torana.Counter
import Torana.Samples

/-!
The weighted schedule of a balancer and the calls of `next` that read it: every
upstream has as many slots as its reduced weight says, and every window of one
schedule length takes each of them once.
-/
namespace Torana.Schedule
open Upstream (LoadBalancer UpstreamPool)
open Pool (World Reaches own)
open Prog (Only Runs runs_bind runs_ret)
open Counter (drawn Counts)
open Rotation (interleave)

/-! ## The slots of an upstream -/

/-- How many slots the upstream at one place of the list gets. -/
def share (upstreams : List UpstreamPool) (j : Fin upstreams.length) : Nat :=
  max upstreams[j].weight 1 / max (Upstream.gcdAll upstreams) 1

/-- The upstream at one place of the list as the schedule holds it. -/
def entry (upstreams : List UpstreamPool) (j : Fin upstreams.length) : UpstreamPool :=
  { upstreams[j] with weight := share upstreams j }

/-- For every slot of the schedule, the place in the list that it was filled from. -/
def slots (upstreams : List UpstreamPool) : List (Fin upstreams.length) :=
  interleave (share upstreams) (((Upstream.reduced upstreams).map (·.weight)).max?.getD 1)
    (List.finRange upstreams.length)

theorem reduced_eq (upstreams : List UpstreamPool) :
    Upstream.reduced upstreams = (List.finRange upstreams.length).map (entry upstreams) := by
  refine List.ext_getElem (by simp [Upstream.reduced]) fun i _ _ => ?_
  simp [Upstream.reduced, entry, share]

theorem schedule_eq (upstreams : List UpstreamPool) (counter : Nat) :
    (LoadBalancer.new upstreams counter).upstreams = (slots upstreams).map (entry upstreams) := by
  show interleave (·.weight) _ (Upstream.reduced upstreams) = _
  conv_lhs => arg 3; rw [reduced_eq]
  rw [Rotation.interleave_map]
  rfl

theorem weight_le_max {weights : List Nat} {w : Nat} (member : w ∈ weights) : w ≤ weights.max?.getD 1 := by
  cases largest : weights.max? with
  | none =>
    rw [List.max?_eq_none_iff.mp largest] at member
    cases member
  | some most => exact (List.max?_eq_some_iff.mp largest).2 w member

theorem countP_slots (upstreams : List UpstreamPool) (p : Fin upstreams.length → Bool) :
    (slots upstreams).countP p = (((List.finRange upstreams.length).filter p).map (share upstreams)).sum := by
  refine Rotation.countP_interleave_all p fun j _ => weight_le_max ?_
  rw [reduced_eq, List.map_map]
  exact List.mem_map.mpr ⟨j, List.mem_finRange j, rfl⟩

theorem count_slots (upstreams : List UpstreamPool) (j : Fin upstreams.length) :
    (slots upstreams).count j = share upstreams j := by
  have alone : (List.finRange upstreams.length).filter (· == j) = [j] := by
    rw [List.filter_beq, List.count_eq_one_of_mem (List.nodup_finRange _) (List.mem_finRange j)]
    rfl
  rw [List.count, countP_slots, alone]
  simp

theorem length_slots (upstreams : List UpstreamPool) :
    (slots upstreams).length = ((List.finRange upstreams.length).map (share upstreams)).sum := by
  rw [← List.countP_true, countP_slots, List.filter_true]

/-- The fold of the source computes the greatest common divisor of all weights. -/
theorem gcdAll_eq (upstreams : List UpstreamPool) :
    Upstream.gcdAll upstreams = (upstreams.map fun u => max u.weight 1).foldr Nat.gcd 0 := by
  have general : ∀ (weights : List Nat) (acc : Nat),
      weights.foldl Upstream.gcd acc = Nat.gcd acc (weights.foldr Nat.gcd 0) := by
    intro weights
    induction weights with
    | nil => simp
    | cons w rest ih =>
      intro acc
      rw [List.foldl_cons, ih, Upstream.gcd_eq, List.foldr_cons, Nat.gcd_assoc]
  rw [Upstream.gcdAll, general, Nat.gcd_zero_left]

theorem gcdAll_pos {upstreams : List UpstreamPool} (nonempty : upstreams ≠ []) : 0 < Upstream.gcdAll upstreams := by
  obtain ⟨u, member⟩ := List.exists_mem_of_ne_nil upstreams nonempty
  have divides := Upstream.gcdAll_dvd member
  exact Nat.pos_of_dvd_of_pos divides (by omega)

theorem share_eq (upstreams : List UpstreamPool) (j : Fin upstreams.length) :
    share upstreams j =
      max upstreams[j].weight 1 / (upstreams.map fun u => max u.weight 1).foldr Nat.gcd 0 := by
  have nonempty : upstreams ≠ [] := List.ne_nil_of_length_pos (by have := j.isLt; omega)
  have positive := gcdAll_pos nonempty
  rw [share, ← gcdAll_eq, Nat.max_eq_left positive]

theorem length_schedule (upstreams : List UpstreamPool) (counter : Nat) :
    (LoadBalancer.new upstreams counter).upstreams.length =
      (upstreams.map fun u => max u.weight 1 / (upstreams.map fun u => max u.weight 1).foldr Nat.gcd 0).sum := by
  have shares : (List.finRange upstreams.length).map (share upstreams) =
      upstreams.map fun u => max u.weight 1 / (upstreams.map fun u => max u.weight 1).foldr Nat.gcd 0 := by
    refine List.ext_getElem (by simp) fun i _ _ => ?_
    simp [share_eq]
  rw [schedule_eq, List.length_map, length_slots, shares]

theorem schedule_ne_nil {upstreams : List UpstreamPool} (nonempty : upstreams ≠ []) (counter : Nat) :
    (LoadBalancer.new upstreams counter).upstreams ≠ [] := by
  intro empty
  obtain ⟨u, member⟩ := List.exists_mem_of_ne_nil upstreams nonempty
  have listed := (Upstream.mem_schedule_addr upstreams counter u.addr).mpr (List.mem_map_of_mem member)
  rw [empty] at listed
  cases listed

/-! ## Scaled weights -/

/-- The upstreams with each weight multiplied. -/
def scaled (k : Nat) (upstreams : List UpstreamPool) : List UpstreamPool :=
  upstreams.map fun u => { u with weight := k * u.weight }

theorem foldr_gcd_mul (k : Nat) (weights : List Nat) :
    (weights.map (k * ·)).foldr Nat.gcd 0 = k * weights.foldr Nat.gcd 0 := by
  induction weights with
  | nil => rfl
  | cons w rest ih => rw [List.map_cons, List.foldr_cons, List.foldr_cons, ih, Nat.gcd_mul_left]

/-- The common divisor grows with the weights. -/
theorem gcdAll_scaled {k : Nat} (scale : 1 ≤ k) {upstreams : List UpstreamPool}
    (positive : ∀ u ∈ upstreams, 1 ≤ u.weight) : Upstream.gcdAll (scaled k upstreams) = k * Upstream.gcdAll upstreams := by
  have weights : (scaled k upstreams).map (fun u => max u.weight 1) =
      (upstreams.map fun u => max u.weight 1).map (k * ·) := by
    rw [scaled, List.map_map, List.map_map]
    refine List.map_congr_left fun u member => ?_
    have large : 1 ≤ k * u.weight := Nat.mul_pos scale (positive u member)
    simp only [Function.comp_apply]
    rw [Nat.max_eq_left large, Nat.max_eq_left (positive u member)]
  rw [gcdAll_eq, weights, foldr_gcd_mul, gcdAll_eq]

/-- A schedule depends on the ratios of the weights alone. -/
theorem schedule_scaled (upstreams : List UpstreamPool) (counter k : Nat) (positive : ∀ u ∈ upstreams, 1 ≤ u.weight)
    (scale : 1 ≤ k) :
    (LoadBalancer.new (scaled k upstreams) counter).upstreams = (LoadBalancer.new upstreams counter).upstreams := by
  have same : Upstream.reduced (scaled k upstreams) = Upstream.reduced upstreams := by
    unfold Upstream.reduced
    rw [gcdAll_scaled scale positive, scaled, List.map_map]
    refine List.map_congr_left fun u member => ?_
    have divisor : 0 < Upstream.gcdAll upstreams := gcdAll_pos (List.ne_nil_of_mem member)
    have large : 1 ≤ k * u.weight := Nat.mul_pos scale (positive u member)
    simp only [Function.comp_apply]
    rw [Nat.max_eq_left large, Nat.max_eq_left (Nat.mul_pos scale divisor), Nat.max_eq_left (positive u member),
      Nat.max_eq_left divisor, Nat.mul_div_mul_left _ _ scale]
  show Upstream.expanded _ = Upstream.expanded _
  rw [same]

/-- `90 / 10` has the schedule of `9 / 1`. -/
theorem schedule_scaled_tenth :
    (LoadBalancer.new (scaled 10 [⟨"http://10.0.0.1:80", 9⟩, ⟨"http://10.0.0.2:80", 1⟩]) 0).upstreams =
      (LoadBalancer.new [⟨"http://10.0.0.1:80", 9⟩, ⟨"http://10.0.0.2:80", 1⟩] 0).upstreams :=
  schedule_scaled _ 0 10 (by decide) (by decide)

/-! ## `next` -/

/-- What a call of `next` returns that drew this counter value. -/
def returned (lb : LoadBalancer) : Event Act.Res → Option UpstreamPool
  | ⟨.fetchAdd _ _, start⟩ => lb.upstreams[start % lb.upstreams.length]?
  | _ => none

theorem next_runs {lb : LoadBalancer} (nonempty : lb.upstreams ≠ []) {bits : Nat} {trace : History}
    {result : Option UpstreamPool} :
    Runs (lb.next bits) trace (.ret result) ↔
      ∃ start, trace = [⟨.fetchAdd lb.counter bits, start⟩] ∧
        result = lb.upstreams[start % lb.upstreams.length]? := by
  rw [LoadBalancer.next, if_neg nonempty, call, Prog.call_bind]
  constructor
  · intro run
    obtain ⟨-, ends⟩ | ⟨start, rest, rfl, later⟩ := Prog.runs_act run
    · cases ends
    · obtain ⟨rfl, same⟩ := runs_ret.mp later
      cases same
      exact ⟨start, rfl, rfl⟩
  · rintro ⟨start, rfl, rfl⟩
    exact .cons start (.nil _)

theorem times_next_runs {lb : LoadBalancer} (nonempty : lb.upstreams ≠ []) {bits n : Nat} {trace : History}
    {results : List (Option UpstreamPool)} (run : Runs (Prog.times (lb.next bits) n) trace (.ret results)) :
    results = trace.map (returned lb) := by
  induction n generalizing trace results with
  | zero =>
    obtain ⟨rfl, same⟩ := runs_ret.mp run
    cases same
    rfl
  | succ n ih =>
    obtain ⟨first, second, result, rfl, here, later⟩ := runs_bind.mp run
    obtain ⟨rest, last, others, rfl, behind, ends⟩ := runs_bind.mp later
    obtain ⟨rfl, same⟩ := runs_ret.mp ends
    cases same
    obtain ⟨start, rfl, rfl⟩ := (next_runs nonempty).mp here
    rw [ih behind]
    simp [returned]

/-! ## Callers -/

/-- Callers that share a balancer: each calls `p` a number of times in a row. -/
def callers {α : Type} (p : Program α) (calls : Tid → Nat) (t : Tid) : Program Unit := do
  let _ ← Prog.times p (calls t)
  return ()

theorem callers_only {α : Type} {allowed : Act → Prop} {p : Program α} (only : Only allowed p) (calls : Tid → Nat)
    (t : Tid) : Only allowed (callers p calls t) :=
  Prog.only_bind (Prog.only_times only (calls t)) fun _ => trivial

/-- A caller that is done has the results of all its calls. -/
theorem callers_runs {α : Type} {p : Program α} {calls : Tid → Nat} {t : Tid} {trace : History}
    (run : Runs (callers p calls t) trace (.ret ())) : ∃ results, Runs (Prog.times p (calls t)) trace (.ret results) := by
  obtain ⟨first, second, results, rfl, here, later⟩ := runs_bind.mp run
  obtain ⟨rfl, -⟩ := runs_ret.mp later
  exact ⟨results, by simpa using here⟩

theorem next_only (lb : LoadBalancer) (bits : Nat) :
    Only (fun a => a = .fetchAdd lb.counter bits) (lb.next bits) := by
  unfold LoadBalancer.next
  split
  · trivial
  · exact Prog.only_call_bind rfl fun _ => trivial

/-- When nothing but `next` is called, every event is a call and returns what its value selects. -/
theorem returned_drawn (lb : LoadBalancer) {bits : Nat} {log : List (Tid × Event Act.Res)}
    (calls : ∀ e ∈ log, e.2.act = .fetchAdd lb.counter bits) :
    (drawn lb.counter log).length = log.length ∧ log.map (fun e => returned lb e.2) =
      (drawn lb.counter log).map fun start => lb.upstreams[start % lb.upstreams.length]? := by
  induction log with
  | nil => exact ⟨rfl, rfl⟩
  | cons e rest ih =>
    obtain ⟨t, a, start⟩ := e
    obtain rfl : a = .fetchAdd lb.counter bits := calls _ List.mem_cons_self
    obtain ⟨same, results⟩ := ih fun e member => calls e (List.mem_cons_of_mem _ member)
    rw [← List.singleton_append, Counter.drawn_append, Counter.drawn_fetchAdd]
    refine ⟨by simp [same], ?_⟩
    rw [List.map_append, List.map_append, results]
    rfl

section
variable {crates : Crates} {lb : LoadBalancer} {bits : Nat} {calls : Tid → Nat} {s : Store} {w : World Tid Act.Res Store}
  (reaches : Reaches (perform crates) (fun _ _ => True) ⟨s, callers (lb.next bits) calls, []⟩ w)
include reaches

theorem callers_log : ∀ e ∈ w.log, e.2.act = .fetchAdd lb.counter bits := by
  intro e member
  rcases Pool.reaches_log (callers_only (next_only lb bits) calls) reaches e member with before | called
  · cases before
  · exact called

theorem callers_results (filled : lb.upstreams ≠ []) {t : Tid} (done : w.threads t = .ret ()) :
    Runs (Prog.times (lb.next bits) (calls t)) (own t w.log) (.ret ((own t w.log).map (returned lb))) := by
  obtain ⟨trace, logged, runs⟩ := Pool.reaches_runs reaches
  have mine := runs t
  rw [done, ← List.nil_append trace, ← logged] at mine
  obtain ⟨results, ran⟩ := callers_runs mine
  rw [← times_next_runs filled ran]
  exact ran

/-- A window of the calls draws consecutive values. -/
theorem window_drawn (below : s.counters lb.counter < 2 ^ bits) {before window after : List (Tid × Event Act.Res)}
    (split : w.log = before ++ window ++ after)
    (small : (s.counters lb.counter + before.length) % 2 ^ bits + window.length ≤ 2 ^ bits) :
    drawn lb.counter window =
      (List.range window.length).map ((s.counters lb.counter + before.length) % 2 ^ bits + ·) := by
  have events := callers_log reaches
  rw [split] at events
  have counts : ∀ t, Only (Counts lb.counter bits) (callers (lb.next bits) calls t) := by
    refine fun t => Prog.only_mono ?_ (callers_only (next_only lb bits) calls t)
    rintro _ rfl
    exact ⟨by simp, fun width same => by cases same; rfl⟩
  have values : drawn lb.counter w.log =
      (List.range (drawn lb.counter w.log).length).map fun i => (s.counters lb.counter + i) % 2 ^ bits :=
    Counter.reaches_drawn counts below rfl reaches
  rw [split, Counter.drawn_append, Counter.drawn_append] at values
  obtain ⟨first, -⟩ := returned_drawn lb fun e member =>
    events e (List.mem_append_left _ (List.mem_append_left _ member))
  obtain ⟨size, -⟩ := returned_drawn lb fun e (member : e ∈ window) =>
    events e (List.mem_append_left _ (List.mem_append_right _ member))
  have consecutive := Rotation.part_of_map_range values
  rw [first, size] at consecutive
  rw [consecutive]
  refine List.map_congr_left fun i inside => ?_
  have inside := List.mem_range.mp inside
  rw [← Nat.add_assoc, ← Nat.mod_add_mod, Nat.mod_eq_of_lt (by omega)]

end

/-- The schedule has one slot for every unit of the reduced weights. In every interleaving
    of callers each call returns what its counter value selects, and as many consecutive
    values as the schedule has slots return the upstream at every place of the list as
    often as its weight, divided by what all weights have in common, says. -/
theorem next_exact (upstreams : List UpstreamPool) (nonempty : upstreams ≠ []) (counter bits : Nat) :
    let lb := LoadBalancer.new upstreams counter
    let g := (upstreams.map fun u => max u.weight 1).foldr Nat.gcd 0
    let length := (upstreams.map fun u => max u.weight 1 / g).sum
    lb.upstreams.length = length ∧ lb.upstreams = (slots upstreams).map (entry upstreams) ∧
      ∀ (crates : Crates) (calls : Tid → Nat) (s : Store) (w : World Tid Act.Res Store),
        s.counters counter < 2 ^ bits →
        Reaches (perform crates) (fun _ _ => True) ⟨s, callers (lb.next bits) calls, []⟩ w →
        (∀ t, w.threads t = .ret () →
          Runs (Prog.times (lb.next bits) (calls t)) (own t w.log) (.ret ((own t w.log).map (returned lb)))) ∧
        ∀ before window after start, w.log = before ++ window ++ after → window.length = length →
          start = (s.counters counter + before.length) % 2 ^ bits → start + length ≤ 2 ^ bits →
          drawn counter window = (List.range length).map (start + ·) ∧
          (window.map fun e => returned lb e.2) =
            ((slots upstreams).rotate start).map (fun j => some (entry upstreams j)) ∧
          ∀ j : Fin upstreams.length, ((slots upstreams).rotate start).count j = max upstreams[j].weight 1 / g := by
  intro lb g length
  have schedule : lb.upstreams = (slots upstreams).map (entry upstreams) := schedule_eq upstreams counter
  have total : lb.upstreams.length = length := length_schedule upstreams counter
  refine ⟨total, schedule, fun crates calls s w below reaches => ⟨?_, ?_⟩⟩
  · intro t done
    exact callers_results reaches (schedule_ne_nil nonempty counter) done
  · rintro before window after start split size rfl small
    rw [← size] at small
    have values : drawn counter window = _ := window_drawn reaches below split small
    obtain ⟨-, results⟩ := returned_drawn lb fun e (member : e ∈ window) =>
      callers_log reaches e (by rw [split]; exact List.mem_append_left _ (List.mem_append_right _ member))
    have cyclic := Rotation.map_range_getElem? lb.upstreams ((s.counters counter + before.length) % 2 ^ bits)
    rw [size] at values
    refine ⟨values, ?_, fun j => ?_⟩
    · rw [results, show drawn lb.counter window = drawn counter window from rfl, values, List.map_map, ← total]
      rw [schedule, ← List.map_rotate, List.map_map] at cyclic
      rw [schedule]
      exact cyclic
    · rw [(List.rotate_perm _ _).count_eq, count_slots, share_eq]

/-! ## Three parts to one -/

def uneven : List UpstreamPool := [⟨"http://10.0.0.1:80", 75⟩, ⟨"http://10.0.0.2:80", 25⟩]

/-- Two callers, one with three calls and one with two. -/
def twoCallers (t : Tid) : Nat := if t = .request 0 then 3 else if t = .request 1 then 2 else 0

def takingTurns : World Tid Act.Res Store :=
  ⟨Samples.store (Samples.config []) Table.empty, callers ((LoadBalancer.new uneven 0).next 64) twoCallers, []⟩

/-- The calls after the first one start in the middle of the schedule. -/
theorem next_exact_uneven :
    ∃ w, Reaches (perform Samples.unreloaded) (fun _ _ => True) takingTurns w ∧ w.log.length = 5 ∧
      (w.log.tail.map fun e => returned (LoadBalancer.new uneven 0) e.2) =
        ((slots uneven).rotate 1).map (fun j => some (entry uneven j)) ∧
      ((slots uneven).rotate 1).count ⟨0, by decide⟩ = 3 ∧ ((slots uneven).rotate 1).count ⟨1, by decide⟩ = 1 := by
  have ran : (Pool.run (perform Samples.unreloaded) (fun _ _ => true)
      ([0, 1, 0, 1, 0].map fun n => (.request n, Samples.outside)) takingTurns).any (fun w => w.log.length = 5) = true := by
    decide +kernel
  obtain ⟨w, taken, size⟩ := (Option.any_eq_true _ _).mp ran
  have size : w.log.length = 5 := of_decide_eq_true size
  have reaches : Reaches (perform Samples.unreloaded) (fun _ _ => True) takingTurns w :=
    Pool.run_reaches (fun _ _ _ => trivial) taken
  obtain ⟨-, -, runs⟩ := next_exact uneven (by decide) 0 64
  obtain ⟨-, windows⟩ := runs Samples.unreloaded twoCallers _ w (by decide) reaches
  obtain ⟨-, results, counts⟩ := windows (w.log.take 1) w.log.tail [] 1
    (by rw [List.append_nil, ← List.drop_one, List.take_append_drop]) (by rw [List.length_tail, size]; decide)
    (by rw [List.length_take, size]; decide) (by decide)
  refine ⟨w, reaches, size, results, ?_, ?_⟩
  · rw [counts]
    decide
  · rw [counts]
    decide

end Torana.Schedule
