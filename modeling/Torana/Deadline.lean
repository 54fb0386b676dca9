import Torana.Drain

/-!
The drain loop of `Server::run` with its clock. The loop looks at the count of
`conn_tracker` and at the time, and sleeps between two looks; the other tasks go on
meanwhile. Times are in milliseconds. A timer is never early, but it can be late by any time.
-/
namespace Torana.Deadline
open Drain

/-! ## The loop and its clock -/

/-- `DRAIN_TIMEOUT`. -/
def drainTimeout : Nat := 15000

/-- What the loop sleeps between two looks. -/
def drainSleep : Nat := 50

structure Timed where
  state : State
  now : Nat
  -- there behind `drop(handler)`
  deadline : Option Nat
  -- the main task sleeps until then at least
  wakes : Nat
  deriving DecidableEq

def start : Timed := ⟨init, 0, none, 0⟩

inductive TimedLabel where
  | tick (passed : Nat)
  | setDeadline
  | task (label : Label)
  deriving DecidableEq

/-- The untimed step. -/
def TimedLabel.task? : TimedLabel → Option Label
  | .task label => some label
  | _ => none

namespace Timed

/-- The main task is awake behind the start of its loop. -/
def Awake (t : Timed) : Prop := t.deadline ≠ none ∧ t.wakes ≤ t.now

instance (t : Timed) : Decidable t.Awake := inferInstanceAs (Decidable (_ ∧ _))

/-- What the loop asks of the time. -/
def timely (t : Timed) : Label → Bool
  | .main .sleep => t.Awake ∧ ∀ deadline ∈ t.deadline, t.now < deadline
  | .main .leave => t.Awake
  | .main .expire => t.Awake ∧ ∀ deadline ∈ t.deadline, deadline ≤ t.now
  | _ => true

def step (t : Timed) : TimedLabel → Option Timed
  | .tick passed => some { t with now := t.now + passed }
  | .setDeadline =>
    if t.state.main = .draining ∧ t.deadline = none then
      some { t with deadline := some (t.now + drainTimeout), wakes := t.now }
    else none
  | .task label =>
    if t.timely label then
      (t.state.step label).map fun s =>
        { t with state := s, wakes := if label = .main .sleep then t.now + drainSleep else t.wakes }
    else none

/-- The state behind a sequence of steps, if each of them can happen. -/
def run : Timed → List TimedLabel → Option Timed
  | t, [] => some t
  | t, label :: rest => (t.step label).bind fun t' => run t' rest

end Timed

/-- How often the loop slept. -/
def sleeps (labels : List TimedLabel) : Nat := labels.count (.task (.main .sleep))

section
variable {t t' : Timed}

/-- Everything that a task's step does. -/
theorem task_cases {label : Label} (taken : t.step (.task label) = some t') :
    t.timely label = true ∧ ∃ s, t.state.step label = some s ∧
      t' = { t with state := s, wakes := if label = .main .sleep then t.now + drainSleep else t.wakes } := by
  unfold Timed.step at taken
  simp only [Option.ite_none_right_eq_some, Option.map_eq_some_iff] at taken
  obtain ⟨timely, s, moved, rfl⟩ := taken
  exact ⟨timely, s, moved, rfl⟩

/-- Without its clock a run is one of the untimed system. -/
theorem run_untimed {labels : List TimedLabel} (ran : t.run labels = some t') :
    t.state.run (labels.filterMap TimedLabel.task?) = some t'.state := by
  induction labels generalizing t with
  | nil =>
    cases ran
    rfl
  | cons label rest ih =>
    obtain ⟨u, taken, later⟩ := Option.bind_eq_some_iff.mp ran
    cases label with
    | tick passed =>
      cases taken
      have same := ih later
      exact same
    | setDeadline =>
      obtain ⟨_, same⟩ := Option.ite_none_right_eq_some.mp taken
      cases same
      have same := ih later
      exact same
    | task label =>
      obtain ⟨-, s, moved, rfl⟩ := task_cases taken
      show (t.state.step label).bind _ = _
      rw [moved]
      exact ih later

/-- Only the step that says so leaves the loop behind the deadline. -/
theorem left_by {s s' : State} {label : Label} (taken : s.step label = some s') {expired : Bool}
    (left : s'.main = .left expired) :
    s.main = .left expired ∨ (expired = false ∧ label = .main .leave) ∨ (expired = true ∧ label = .main .expire) := by
  cases label with
  | main a =>
    have moved : s.mainStep a = some s' := taken
    cases a with
    | spawnListener tls =>
      obtain ⟨_, same⟩ := Option.ite_none_right_eq_some.mp moved
      cases same
      exact .inl left
    | sleep =>
      obtain ⟨_, same⟩ := Option.ite_none_right_eq_some.mp moved
      cases same
      exact .inl left
    | leave =>
      obtain ⟨_, same⟩ := Option.ite_none_right_eq_some.mp moved
      cases same
      cases left
      exact .inr (.inl ⟨rfl, rfl⟩)
    | expire =>
      obtain ⟨_, same⟩ := Option.ite_none_right_eq_some.mp moved
      cases same
      cases left
      exact .inr (.inr ⟨rfl, rfl⟩)
    | _ =>
      obtain ⟨_, same⟩ := Option.ite_none_right_eq_some.mp moved
      cases same
      cases left
  | listener i a =>
    obtain ⟨l, -, moved⟩ := Option.bind_eq_some_iff.mp taken
    obtain ⟨phase, strong, conns, rfl, -⟩ := listenerStep_cases moved
    exact .inl left
  | conn j a =>
    obtain ⟨c, -, moved⟩ := Option.bind_eq_some_iff.mp taken
    obtain ⟨phase, strong, rfl, -⟩ := connStep_cases moved
    exact .inl left

end

/-! ## How long the loop goes on -/

/-- The main task has slept `slept` times. Each time it took at least `drainSleep` of the time
    that there is, so that it cannot be very often. -/
structure Paced (slept : Nat) (t : Timed) : Prop where
  inv : Inv t.state
  idle : t.state.main = .left false → ¬ t.state.Busy
  early : t.deadline = none → slept = 0
  counted : ∀ deadline, t.deadline = some deadline → deadline + drainSleep * slept ≤ t.wakes + drainTimeout
  near : ∀ deadline, t.deadline = some deadline → t.wakes < deadline + drainSleep
  few : drainSleep * slept ≤ drainTimeout
  late : t.state.main = .left true → ∃ deadline, t.deadline = some deadline ∧ deadline ≤ t.now

theorem paced_start : Paced 0 start where
  inv := inv_init
  idle := nofun
  early _ := rfl
  counted := nofun
  near := nofun
  few := Nat.zero_le _
  late := nofun

section
variable {t t' : Timed} {slept : Nat}

theorem paced_tick (paced : Paced slept t) (passed : Nat) : Paced slept { t with now := t.now + passed } := by
  refine { paced with late := fun left => ?_ }
  obtain ⟨deadline, there, passed⟩ := paced.late left
  exact ⟨deadline, there, Nat.le_add_right_of_le passed⟩

theorem paced_deadline (paced : Paced slept t) (draining : t.state.main = .draining) (unset : t.deadline = none) :
    Paced slept { t with deadline := some (t.now + drainTimeout), wakes := t.now } := by
  have unslept := paced.early unset
  refine { paced with early := nofun, counted := ?_, near := ?_, late := fun left => ?_ }
  · rintro _ ⟨⟩
    simp only [unslept]
    omega
  · rintro _ ⟨⟩
    show t.now < t.now + drainTimeout + drainSleep
    unfold drainTimeout drainSleep
    omega
  · cases draining.symm.trans left

theorem paced_task {label : Label} (paced : Paced slept t) (taken : t.step (.task label) = some t') :
    Paced (slept + sleeps [.task label]) t' := by
  obtain ⟨timely, s, moved, rfl⟩ := task_cases taken
  have inv := step_inv paced.inv moved
  have idle : s.main = .left false → ¬ s.Busy := left_idle paced.inv paced.idle moved
  have late : s.main = .left true → ∃ deadline, t.deadline = some deadline ∧ deadline ≤ t.now := by
    intro left
    rcases left_by moved left with before | ⟨returned, -⟩ | ⟨-, rfl⟩
    · exact paced.late before
    · cases returned
    · obtain ⟨⟨set, -⟩, passed⟩ := of_decide_eq_true timely
      obtain ⟨deadline, there⟩ := Option.ne_none_iff_exists'.mp set
      exact ⟨deadline, there, passed deadline there⟩
  by_cases sleep : label = .main .sleep
  · subst sleep
    obtain ⟨⟨set, awake⟩, before⟩ := of_decide_eq_true timely
    obtain ⟨deadline, there⟩ := Option.ne_none_iff_exists'.mp set
    have before := before deadline there
    have counted := paced.counted deadline there
    have once : sleeps [.task (.main .sleep)] = 1 := rfl
    rw [once]
    refine ⟨inv, idle, fun unset => absurd unset set, ?_, ?_, ?_, late⟩
    · intro other same
      cases there.symm.trans same
      show deadline + drainSleep * (slept + 1) ≤ t.now + drainSleep + drainTimeout
      rw [Nat.mul_succ]
      omega
    · intro other same
      cases there.symm.trans same
      show t.now + drainSleep < deadline + drainSleep
      omega
    · unfold drainSleep drainTimeout at counted ⊢
      omega
  · have still : sleeps [.task label] = 0 := by
      have other : TimedLabel.task label ≠ .task (.main .sleep) := fun same => sleep (TimedLabel.task.inj same)
      simp [sleeps, other]
    rw [still, Nat.add_zero]
    simp only [if_neg sleep]
    exact ⟨inv, idle, paced.early, paced.counted, paced.near, paced.few, late⟩

theorem paced_run {labels : List TimedLabel} (paced : Paced slept t) (ran : t.run labels = some t') :
    Paced (slept + sleeps labels) t' := by
  induction labels generalizing t slept with
  | nil =>
    cases ran
    exact paced
  | cons label rest ih =>
    obtain ⟨u, taken, later⟩ := Option.bind_eq_some_iff.mp ran
    have split : sleeps (label :: rest) = sleeps [label] + sleeps rest := by
      rw [sleeps, sleeps, sleeps, ← List.count_append]
      rfl
    rw [split, ← Nat.add_assoc]
    refine ih ?_ later
    cases label with
    | tick passed =>
      cases taken
      exact paced_tick paced passed
    | setDeadline =>
      obtain ⟨⟨draining, unset⟩, same⟩ := Option.ite_none_right_eq_some.mp taken
      cases same
      exact paced_deadline paced draining unset
    | task label => exact paced_task paced taken

/-- What the main task can do next when it looks. -/
structure Looks (t : Timed) (deadline : Nat) : Prop where
  leaves : (t.step (.task (.main .leave))).isSome = true ↔ ¬ t.state.Busy
  sleeps : (t.step (.task (.main .sleep))).isSome = true ↔ t.state.Busy ∧ t.now < deadline
  expires : (t.step (.task (.main .expire))).isSome = true ↔ t.state.Busy ∧ deadline ≤ t.now

theorem paced_looks {deadline : Nat} (paced : Paced slept t) (set : t.deadline = some deadline)
    (draining : t.state.main = .draining) (awake : t.wakes ≤ t.now) : Looks t deadline := by
  have busy : 1 < t.state.strong ↔ t.state.Busy := count_iff paced.inv (by rw [draining]; rfl)
  have ready : t.Awake := ⟨by simp [set], awake⟩
  refine ⟨?_, ?_, ?_⟩
  · have timely : t.timely (.main .leave) = true := decide_eq_true ready
    rw [← busy, Nat.not_lt]
    simp [Timed.step, timely, State.step, State.mainStep, draining]
  · have timely : t.timely (.main .sleep) = decide (t.now < deadline) := by simp [Timed.timely, ready, set]
    rw [← busy]
    simp only [Timed.step, timely, State.step, State.mainStep, draining, true_and, decide_eq_true_eq]
    by_cases early : t.now < deadline <;> by_cases running : 1 < t.state.strong <;> simp [early, running]
  · have timely : t.timely (.main .expire) = decide (deadline ≤ t.now) := by simp [Timed.timely, ready, set]
    rw [← busy]
    simp only [Timed.step, timely, State.step, State.mainStep, draining, true_and, decide_eq_true_eq]
    by_cases late : deadline ≤ t.now <;> by_cases running : 1 < t.state.strong <;> simp [late, running]

end

/-- In every run, whatever the other tasks do and however late the timers are: without its
    clock the run is one of the untimed system; the loop sleeps at most 300 times, and its
    timer is never set to 50 ms behind the deadline or later; it is left early only when
    nothing is running and expires only at the deadline; and whenever its timer is due
    it sleeps again exactly when something is running before the deadline. -/
theorem drain_timed (labels : List TimedLabel) (t : Timed) (ran : start.run labels = some t) :
    init.run (labels.filterMap TimedLabel.task?) = some t.state ∧ sleeps labels ≤ 300 ∧
      (t.state.main = .left false → ¬ t.state.Busy) ∧
      (t.state.main = .left true → ∃ deadline, t.deadline = some deadline ∧ deadline ≤ t.now) ∧
      ∀ deadline, t.deadline = some deadline → t.wakes < deadline + drainSleep ∧
        (t.state.main = .draining → t.wakes ≤ t.now → Looks t deadline) := by
  have paced : Paced (sleeps labels) t := by
    have paced := paced_run paced_start ran
    rwa [Nat.zero_add] at paced
  have few := paced.few
  unfold drainSleep drainTimeout at few
  refine ⟨run_untimed ran, by omega, paced.idle, paced.late, fun deadline set => ⟨paced.near deadline set, ?_⟩⟩
  exact fun draining awake => paced_looks paced set draining awake

/-- One listener, which the main task finds running once. -/
def waitedOnce : List TimedLabel :=
  [.task (.main (.spawnListener false)), .task (.main .ready), .task (.main .signal), .task (.main .send),
    .task (.main .track), .task (.main .dropHandler), .setDeadline, .task (.main .sleep),
    .task (.listener 0 .subscribe), .tick 20, .task (.listener 0 .observe), .task (.listener 0 .exit), .tick 40]

theorem drain_timed_once : ∃ t, start.run waitedOnce = some t ∧ Looks t 15000 ∧
    (t.step (.task (.main .leave))).isSome = true := by
  refine ⟨_, rfl, ?_, by decide⟩
  exact ((drain_timed waitedOnce _ rfl).2.2.2.2 15000 rfl).2 rfl (by decide)

end Torana.Deadline
