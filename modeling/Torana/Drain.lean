import Mathlib.Algebra.BigOperators.Group.List.Basic
import Mathlib.Algebra.Ring.Nat

/-!
The shutdown of `Server::run`: the main task, its listener loops and the connections
that they accepted (`run_listener`, `run_acme_listener`, `serve_connection`), with
the reference count of `conn_tracker` and the versions of the shutdown channel as
the code changes them. One step is what one task does between two points at which
another one can see a difference.
-/
namespace Torana.Drain

/-! ## Tasks -/

/-- A clone of the handler: it holds a reference to `conn_tracker` and a receiver of the
    shutdown channel that has seen this version. -/
structure ConnHandler where
  seen : Nat
  deriving DecidableEq

inductive ListenerPhase where
  -- spawned, before its receiver is cloned
  | spawned
  -- in `select!` on `accept_or_retry` and `changed`
  | accepting (seen : Nat)
  -- with a stream in its hand
  | accepted (seen : Nat)
  -- with the clone of the handler for the connection
  | cloned (seen : Nat) (handler : ConnHandler)
  -- behind `break`, before its handler is dropped
  | leaving
  | returned
  deriving DecidableEq

/-- The task of `run_listener`, or of `run_acme_listener`. -/
structure Listener where
  handler : ConnHandler
  tls : Bool
  phase : ListenerPhase
  deriving DecidableEq

inductive ConnPhase where
  -- in the spawned task, before `serve_connection`
  | handshaking
  -- in `serve_connection`, before `_guard`
  | entered
  -- before its receiver is cloned
  | guarded
  -- in `select!` on the connection and `changed`
  | serving (seen : Nat)
  -- behind `graceful_shutdown`
  | draining
  -- behind the connection, before `_guard` is dropped
  | served
  -- before its handler is dropped
  | unguarded
  | finished
  deriving DecidableEq

structure Connection where
  handler : ConnHandler
  tls : Bool
  phase : ConnPhase
  deriving DecidableEq

inductive MainPhase where
  -- spawning the listeners
  | starting
  -- in `shutdown_signal`
  | waiting
  | signalled
  | sent
  -- with the clone `tracker`
  | tracked
  -- its handler is dropped
  | draining
  | left (expired : Bool)
  deriving DecidableEq

/-- The tasks, the version of the shutdown channel and the strong count of `conn_tracker`. -/
structure State where
  main : MainPhase
  handler : ConnHandler
  version : Nat
  strong : Nat
  listeners : List Listener
  conns : List Connection
  deriving DecidableEq

/-- Behind the construction of the handler. -/
def init : State := ⟨.starting, ⟨0⟩, 0, 1, [], []⟩

/-! ## Steps -/

inductive MainStep where
  | spawnListener (tls : Bool)
  | ready
  | signal
  | send
  | track
  | dropHandler
  -- one round of the drain loop
  | sleep
  | leave
  | expire
  deriving DecidableEq

inductive ListenerStep where
  | subscribe
  | accept
  | cloneHandler
  | dispatch
  | observe
  | exit
  deriving DecidableEq

inductive ConnStep where
  | failHandshake
  | enter
  | guard
  | subscribe
  | observe
  | complete
  | dropGuard
  | dropHandler
  deriving DecidableEq

inductive Label where
  | main (a : MainStep)
  | listener (i : Nat) (a : ListenerStep)
  | conn (j : Nat) (a : ConnStep)
  deriving DecidableEq

namespace State

def mainStep (s : State) : MainStep → Option State
  | .spawnListener tls =>
    if s.main = .starting then
      some { s with listeners := s.listeners ++ [⟨s.handler, tls, .spawned⟩], strong := s.strong + 1 }
    else none
  | .ready => if s.main = .starting then some { s with main := .waiting } else none
  | .signal => if s.main = .waiting then some { s with main := .signalled } else none
  | .send => if s.main = .signalled then some { s with main := .sent, version := s.version + 1 } else none
  | .track => if s.main = .sent then some { s with main := .tracked, strong := s.strong + 1 } else none
  | .dropHandler => if s.main = .tracked then some { s with main := .draining, strong := s.strong - 1 } else none
  -- The count exceeds the baseline and the deadline has not passed.
  | .sleep => if s.main = .draining ∧ 1 < s.strong then some s else none
  | .leave => if s.main = .draining ∧ s.strong ≤ 1 then some { s with main := .left false } else none
  -- The count exceeds the baseline and the deadline has passed.
  | .expire => if s.main = .draining ∧ 1 < s.strong then some { s with main := .left true } else none

def setListener (s : State) (i : Nat) (l : Listener) (phase : ListenerPhase) : State :=
  { s with listeners := s.listeners.set i { l with phase } }

/-- One step of a listener loop. `changed` completes when a newer version exists; the
    other branch may be taken nevertheless. -/
def listenerStep (s : State) (i : Nat) (l : Listener) (a : ListenerStep) : Option State :=
  match a, l.phase with
  | .subscribe, .spawned => some (s.setListener i l (.accepting l.handler.seen))
  | .accept, .accepting seen => some (s.setListener i l (.accepted seen))
  | .cloneHandler, .accepted seen =>
    some { s.setListener i l (.cloned seen l.handler) with strong := s.strong + 1 }
  | .dispatch, .cloned seen handler =>
    some { s.setListener i l (.accepting seen) with conns := s.conns ++ [⟨handler, l.tls, .handshaking⟩] }
  | .observe, .accepting seen => if seen < s.version then some (s.setListener i l .leaving) else none
  | .exit, .leaving => some { s.setListener i l .returned with strong := s.strong - 1 }
  | _, _ => none

def setConn (s : State) (j : Nat) (c : Connection) (phase : ConnPhase) : State :=
  { s with conns := s.conns.set j { c with phase } }

/-- One step of a connection's task. Only a TLS handshake can fail. -/
def connStep (s : State) (j : Nat) (c : Connection) (a : ConnStep) : Option State :=
  match a, c.phase with
  | .failHandshake, .handshaking =>
    if c.tls then some { s.setConn j c .finished with strong := s.strong - 1 } else none
  | .enter, .handshaking => some (s.setConn j c .entered)
  | .guard, .entered => some { s.setConn j c .guarded with strong := s.strong + 1 }
  | .subscribe, .guarded => some (s.setConn j c (.serving c.handler.seen))
  | .observe, .serving seen => if seen < s.version then some (s.setConn j c .draining) else none
  | .complete, .serving _ => some (s.setConn j c .served)
  | .complete, .draining => some (s.setConn j c .served)
  | .dropGuard, .served => some { s.setConn j c .unguarded with strong := s.strong - 1 }
  | .dropHandler, .unguarded => some { s.setConn j c .finished with strong := s.strong - 1 }
  | _, _ => none

def step (s : State) : Label → Option State
  | .main a => s.mainStep a
  | .listener i a => (s.listeners[i]?).bind fun l => s.listenerStep i l a
  | .conn j a => (s.conns[j]?).bind fun c => s.connStep j c a

/-- The state behind a sequence of steps, if each of them can happen. -/
def run : State → List Label → Option State
  | s, [] => some s
  | s, label :: rest => (s.step label).bind fun s' => run s' rest

end State

theorem run_append (s : State) (first rest : List Label) :
    s.run (first ++ rest) = (s.run first).bind fun s' => s'.run rest := by
  induction first generalizing s with
  | nil => rfl
  | cons label tail ih =>
    cases taken : s.step label with
    | none => simp only [List.cons_append, State.run, taken, Option.bind_none]
    | some next => simp only [List.cons_append, State.run, taken, Option.bind_some, ih]

/-! ## What a task holds -/

/-- The references to `conn_tracker` that a listener loop holds. -/
def ListenerPhase.holds : ListenerPhase → Nat
  | .returned => 0
  | .cloned _ _ => 2
  | _ => 1

/-- The references that a connection's task holds. -/
def ConnPhase.holds : ConnPhase → Nat
  | .finished => 0
  | .handshaking | .entered | .unguarded => 1
  | _ => 2

/-- The references that the main task holds: its handler, the clone `tracker`, or both. -/
def MainPhase.holds : MainPhase → Nat
  | .tracked => 2
  | _ => 1

/-- The signal was sent. -/
def MainPhase.hasSent : MainPhase → Bool
  | .starting | .waiting | .signalled => false
  | _ => true

/-- The main task has dropped its handler. -/
def MainPhase.hasDropped : MainPhase → Bool
  | .draining | .left _ => true
  | _ => false

/-- What the listener's receivers have seen is what the handler had seen at first. -/
def ListenerPhase.Unseen : ListenerPhase → Prop
  | .accepting seen | .accepted seen => seen = 0
  | .cloned seen handler => seen = 0 ∧ handler.seen = 0
  | _ => True

def ConnPhase.Unseen : ConnPhase → Prop
  | .serving seen => seen = 0
  | _ => True

/-- Some listener loop is still running, maybe with a stream that it accepted, or some
    accepted connection has not finished. -/
def State.Busy (s : State) : Prop :=
  (∃ l ∈ s.listeners, l.phase ≠ .returned) ∨ ∃ c ∈ s.conns, c.phase ≠ .finished

/-- The count is made of what the tasks hold, and no receiver that is still waited for
    has seen the signal. -/
structure Inv (s : State) : Prop where
  count : s.strong = s.main.holds + (s.listeners.map (·.phase.holds)).sum + (s.conns.map (·.phase.holds)).sum
  version : s.version = if s.main.hasSent then 1 else 0
  handler : s.handler.seen = 0
  listeners : ∀ l ∈ s.listeners, l.handler.seen = 0 ∧ l.phase.Unseen
  conns : ∀ c ∈ s.conns, c.handler.seen = 0 ∧ c.phase.Unseen

theorem inv_init : Inv init := ⟨rfl, rfl, rfl, by simp [init], by simp [init]⟩

theorem sum_set {α : Type} (f : α → Nat) {xs : List α} {i : Nat} {x : α} (here : xs[i]? = some x) (y : α) :
    ((xs.set i y).map f).sum + f x = (xs.map f).sum + f y := by
  induction xs generalizing i with
  | nil => cases here
  | cons first rest ih =>
    cases i with
    | zero =>
      cases here
      simp only [List.set_cons_zero, List.map_cons, List.sum_cons]
      omega
    | succ i =>
      have rest := ih here
      simp only [List.set_cons_succ, List.map_cons, List.sum_cons]
      omega

theorem mem_set {α : Type} {p : α → Prop} {xs : List α} {y : α} (i : Nat) (all : ∀ x ∈ xs, p x) (new : p y) :
    ∀ x ∈ xs.set i y, p x := by
  intro x member
  rcases List.mem_or_eq_of_mem_set member with old | rfl
  · exact all x old
  · exact new

section
variable {s s' : State}

/-! ## One step -/

/-- Everything that a step of the main task does. -/
theorem mainStep_cases {a : MainStep} (taken : s.mainStep a = some s') :
    (∃ tls, s.main = .starting ∧
      s' = { s with listeners := s.listeners ++ [⟨s.handler, tls, .spawned⟩], strong := s.strong + 1 }) ∨
    ∃ main version strong, s' = { s with main, version, strong } ∧
      (1 ≤ s.strong → strong + s.main.holds = s.strong + main.holds) ∧
      ((main.hasSent = s.main.hasSent ∧ version = s.version) ∨
        (s.main.hasSent = false ∧ main.hasSent = true ∧ version = s.version + 1)) ∧
      (main = .left false → s.main = .draining ∧ s.strong ≤ 1) := by
  cases a with
  | spawnListener tls =>
    obtain ⟨starting, same⟩ := Option.ite_none_right_eq_some.mp taken
    cases same
    exact .inl ⟨tls, starting, rfl⟩
  | ready =>
    obtain ⟨starting, same⟩ := Option.ite_none_right_eq_some.mp taken
    cases same
    exact .inr ⟨.waiting, _, _, rfl, by simp [starting, MainPhase.holds], .inl ⟨by rw [starting]; rfl, rfl⟩, nofun⟩
  | signal =>
    obtain ⟨waiting, same⟩ := Option.ite_none_right_eq_some.mp taken
    cases same
    exact .inr ⟨.signalled, _, _, rfl, by simp [waiting, MainPhase.holds], .inl ⟨by rw [waiting]; rfl, rfl⟩, nofun⟩
  | send =>
    obtain ⟨signalled, same⟩ := Option.ite_none_right_eq_some.mp taken
    cases same
    exact .inr ⟨.sent, _, _, rfl, by simp [signalled, MainPhase.holds], .inr ⟨by rw [signalled]; rfl, rfl, rfl⟩, nofun⟩
  | track =>
    obtain ⟨sent, same⟩ := Option.ite_none_right_eq_some.mp taken
    cases same
    refine .inr ⟨.tracked, _, _, rfl, ?_, .inl ⟨by rw [sent]; rfl, rfl⟩, nofun⟩
    rw [sent]
    exact fun _ => rfl
  | dropHandler =>
    obtain ⟨tracked, same⟩ := Option.ite_none_right_eq_some.mp taken
    cases same
    refine .inr ⟨.draining, _, _, rfl, ?_, .inl ⟨by rw [tracked]; rfl, rfl⟩, nofun⟩
    rw [tracked]
    intro positive
    change s.strong - 1 + 2 = s.strong + 1
    omega
  | sleep =>
    obtain ⟨⟨draining, -⟩, same⟩ := Option.ite_none_right_eq_some.mp taken
    cases same
    refine .inr ⟨s.main, _, _, rfl, fun _ => rfl, .inl ⟨rfl, rfl⟩, ?_⟩
    intro left
    cases draining.symm.trans left
  | leave =>
    obtain ⟨⟨draining, few⟩, same⟩ := Option.ite_none_right_eq_some.mp taken
    cases same
    exact .inr ⟨.left false, _, _, rfl, by simp [draining, MainPhase.holds], .inl ⟨by rw [draining]; rfl, rfl⟩,
      fun _ => ⟨draining, few⟩⟩
  | expire =>
    obtain ⟨⟨draining, -⟩, same⟩ := Option.ite_none_right_eq_some.mp taken
    cases same
    exact .inr ⟨.left true, _, _, rfl, by simp [draining, MainPhase.holds], .inl ⟨by rw [draining]; rfl, rfl⟩, nofun⟩

/-- Everything that a step of a listener loop does: it may hand a new connection over. -/
theorem listenerStep_cases {i : Nat} {l : Listener} {a : ListenerStep} (taken : s.listenerStep i l a = some s') :
    ∃ phase strong conns, s' = { s.setListener i l phase with strong, conns := s.conns ++ conns } ∧
      (1 ≤ s.strong → strong + l.phase.holds = s.strong + phase.holds + (conns.map (·.phase.holds)).sum) ∧
      (l.handler.seen = 0 → l.phase.Unseen → phase.Unseen ∧ ∀ c ∈ conns, c.handler.seen = 0 ∧ c.phase.Unseen) ∧
      (l.phase = .leaving ∨ l.phase = .returned → phase = .returned) ∧
      (a = .observe → phase = .leaving) ∧ (a = .accept → ∃ seen, l.phase = .accepting seen) := by
  have bare : ∀ t : State, { t with conns := t.conns ++ [] } = t := by simp
  unfold State.listenerStep at taken
  split at taken <;> rename_i phase
  -- subscribe
  · cases taken
    exact ⟨.accepting l.handler.seen, s.strong, [], (bare _).symm, by rw [phase]; exact fun _ => rfl,
      fun own _ => ⟨own, nofun⟩, by simp [phase], nofun, nofun⟩
  -- accept
  · cases taken
    exact ⟨.accepted _, s.strong, [], (bare _).symm, by rw [phase]; exact fun _ => rfl,
      by rw [phase]; exact fun _ unseen => ⟨unseen, nofun⟩, by simp [phase], nofun, fun _ => ⟨_, phase⟩⟩
  -- cloneHandler
  · cases taken
    exact ⟨.cloned _ l.handler, s.strong + 1, [], (bare _).symm, by rw [phase]; exact fun _ => rfl,
      by rw [phase]; exact fun own unseen => ⟨⟨unseen, own⟩, nofun⟩, by simp [phase], nofun, nofun⟩
  -- dispatch
  · cases taken
    refine ⟨.accepting _, s.strong, [⟨_, l.tls, .handshaking⟩], rfl, by rw [phase]; exact fun _ => rfl, ?_,
      by simp [phase], nofun, nofun⟩
    rw [phase]
    rintro - ⟨unseen, fresh⟩
    refine ⟨unseen, ?_⟩
    intro c member
    rw [List.mem_singleton.mp member]
    exact ⟨fresh, trivial⟩
  -- observe
  · obtain ⟨-, same⟩ := Option.ite_none_right_eq_some.mp taken
    cases same
    exact ⟨.leaving, s.strong, [], (bare _).symm, by rw [phase]; exact fun _ => rfl, fun _ _ => ⟨trivial, nofun⟩,
      by simp [phase], fun _ => rfl, nofun⟩
  -- exit
  · cases taken
    refine ⟨.returned, s.strong - 1, [], (bare _).symm, ?_, fun _ _ => ⟨trivial, nofun⟩, fun _ => rfl, nofun, nofun⟩
    simp only [phase, ListenerPhase.holds, List.map_nil, List.sum_nil]
    omega
  · cases taken

/-- Everything that a step of a connection's task does. -/
theorem connStep_cases {j : Nat} {c : Connection} {a : ConnStep} (taken : s.connStep j c a = some s') :
    ∃ phase strong, s' = { s.setConn j c phase with strong } ∧
      (1 ≤ s.strong → strong + c.phase.holds = s.strong + phase.holds) ∧ (c.handler.seen = 0 → phase.Unseen) := by
  unfold State.connStep at taken
  split at taken <;> rename_i phase
  -- failHandshake
  · obtain ⟨-, same⟩ := Option.ite_none_right_eq_some.mp taken
    cases same
    refine ⟨.finished, s.strong - 1, rfl, ?_, fun _ => trivial⟩
    simp only [phase, ConnPhase.holds]
    omega
  -- enter
  · cases taken
    exact ⟨.entered, s.strong, rfl, by rw [phase]; exact fun _ => rfl, fun _ => trivial⟩
  -- guard
  · cases taken
    exact ⟨.guarded, s.strong + 1, rfl, by rw [phase]; exact fun _ => rfl, fun _ => trivial⟩
  -- subscribe
  · cases taken
    exact ⟨.serving c.handler.seen, s.strong, rfl, by rw [phase]; exact fun _ => rfl, id⟩
  -- observe
  · obtain ⟨-, same⟩ := Option.ite_none_right_eq_some.mp taken
    cases same
    exact ⟨.draining, s.strong, rfl, by rw [phase]; exact fun _ => rfl, fun _ => trivial⟩
  -- complete
  · cases taken
    exact ⟨.served, s.strong, rfl, by rw [phase]; exact fun _ => rfl, fun _ => trivial⟩
  · cases taken
    exact ⟨.served, s.strong, rfl, by rw [phase]; exact fun _ => rfl, fun _ => trivial⟩
  -- dropGuard
  · cases taken
    refine ⟨.unguarded, s.strong - 1, rfl, ?_, fun _ => trivial⟩
    simp only [phase, ConnPhase.holds]
    omega
  -- dropHandler
  · cases taken
    refine ⟨.finished, s.strong - 1, rfl, ?_, fun _ => trivial⟩
    simp only [phase, ConnPhase.holds]
    omega
  · cases taken

/-! ## The invariant -/

/-- The main task holds a reference to the end. -/
theorem strong_pos (inv : Inv s) : 1 ≤ s.strong := by
  have count := inv.count
  have held : 1 ≤ s.main.holds := by
    cases s.main <;> simp [MainPhase.holds]
  omega

theorem mainStep_inv (inv : Inv s) {a : MainStep} (taken : s.mainStep a = some s') : Inv s' := by
  have positive := strong_pos inv
  obtain ⟨count, version, handler, listeners, conns⟩ := inv
  rcases mainStep_cases taken with ⟨tls, -, rfl⟩ | ⟨main, version', strong, rfl, balance, sent, -⟩
  · refine ⟨?_, version, handler, ?_, conns⟩
    · have one : ListenerPhase.spawned.holds = 1 := rfl
      simp only [List.map_append, List.map_singleton, List.sum_append, List.sum_singleton, one]
      omega
    · intro l member
      rcases List.mem_append.mp member with old | new
      · exact listeners l old
      · rw [List.mem_singleton.mp new]
        exact ⟨handler, trivial⟩
  · refine ⟨?_, ?_, handler, listeners, conns⟩
    · have held := balance positive
      simp only
      omega
    · rcases sent with ⟨same, rfl⟩ | ⟨unsent, sent, rfl⟩
      · simp only [same]
        exact version
      · rw [unsent] at version
        simp only [sent, version]
        rfl

/-- A listener that moves takes its references with it. -/
theorem listenerStep_inv (inv : Inv s) {i : Nat} {l : Listener} (here : s.listeners[i]? = some l) {a : ListenerStep}
    (taken : s.listenerStep i l a = some s') : Inv s' := by
  obtain ⟨phase, strong, conns, rfl, balance, keeps, -⟩ := listenerStep_cases taken
  have total := sum_set (fun l : Listener => l.phase.holds) here { l with phase }
  have listed := inv.listeners l (List.mem_of_getElem? here)
  obtain ⟨unseen, fresh⟩ := keeps listed.1 listed.2
  refine ⟨?_, inv.version, inv.handler, mem_set i inv.listeners ⟨listed.1, unseen⟩, ?_⟩
  · have count := inv.count
    have held := balance (strong_pos inv)
    simp only [State.setListener, List.map_append, List.sum_append] at total ⊢
    omega
  · intro c member
    exact (List.mem_append.mp member).elim (inv.conns c) (fresh c)

theorem connStep_inv (inv : Inv s) {j : Nat} {c : Connection} (here : s.conns[j]? = some c) {a : ConnStep}
    (taken : s.connStep j c a = some s') : Inv s' := by
  obtain ⟨phase, strong, rfl, balance, keeps⟩ := connStep_cases taken
  have total := sum_set (fun c : Connection => c.phase.holds) here { c with phase }
  have own := (inv.conns c (List.mem_of_getElem? here)).1
  refine ⟨?_, inv.version, inv.handler, inv.listeners, mem_set j inv.conns ⟨own, keeps own⟩⟩
  have count := inv.count
  have held := balance (strong_pos inv)
  simp only [State.setConn] at total ⊢
  omega

theorem step_inv (inv : Inv s) {label : Label} (taken : s.step label = some s') : Inv s' := by
  cases label with
  | main a => exact mainStep_inv inv taken
  | listener i a =>
    obtain ⟨l, here, moved⟩ := Option.bind_eq_some_iff.mp taken
    exact listenerStep_inv inv here moved
  | conn j a =>
    obtain ⟨c, here, moved⟩ := Option.bind_eq_some_iff.mp taken
    exact connStep_inv inv here moved

/-! ## What the count says -/

theorem sum_pos {α : Type} (f : α → Nat) (xs : List α) : 0 < (xs.map f).sum ↔ ∃ x ∈ xs, 0 < f x := by
  rw [List.sum_pos_iff_exists_pos_nat]
  constructor
  · rintro ⟨n, member, positive⟩
    obtain ⟨x, here, rfl⟩ := List.mem_map.mp member
    exact ⟨x, here, positive⟩
  · rintro ⟨x, here, positive⟩
    exact ⟨f x, List.mem_map_of_mem here, positive⟩

theorem listener_holds_iff (phase : ListenerPhase) : 0 < phase.holds ↔ phase ≠ .returned := by
  cases phase <;> simp [ListenerPhase.holds]

theorem conn_holds_iff (phase : ConnPhase) : 0 < phase.holds ↔ phase ≠ .finished := by
  cases phase <;> simp [ConnPhase.holds]

theorem count_iff (inv : Inv s) (dropped : s.main.hasDropped) : 1 < s.strong ↔ s.Busy := by
  have count := inv.count
  have one : s.main.holds = 1 := by
    cases phase : s.main <;> simp_all [MainPhase.holds, MainPhase.hasDropped]
  have listeners := sum_pos (fun l : Listener => l.phase.holds) s.listeners
  have conns := sum_pos (fun c : Connection => c.phase.holds) s.conns
  simp only [listener_holds_iff] at listeners
  simp only [conn_holds_iff] at conns
  rw [State.Busy, ← listeners, ← conns]
  omega

/-! ## What a step leaves as it is -/

theorem sent_step {label : Label} (taken : s.step label = some s') (sent : s.main.hasSent) : s'.main.hasSent := by
  cases label with
  | main a =>
    rcases mainStep_cases taken with ⟨tls, -, rfl⟩ | ⟨main, version, strong, rfl, -, ⟨same, -⟩ | ⟨-, after, -⟩, -⟩
    · exact sent
    · exact same.trans sent
    · exact after
  | listener i a =>
    obtain ⟨l, -, moved⟩ := Option.bind_eq_some_iff.mp taken
    obtain ⟨phase, strong, conns, rfl, -⟩ := listenerStep_cases moved
    exact sent
  | conn j a =>
    obtain ⟨c, -, moved⟩ := Option.bind_eq_some_iff.mp taken
    obtain ⟨phase, strong, rfl, -⟩ := connStep_cases moved
    exact sent

/-- A connection stays as it is while the steps are not its own. -/
theorem conn_step {label : Label} (taken : s.step label = some s') {j : Nat} {c : Connection}
    (here : s.conns[j]? = some c) (other : ∀ a, label ≠ .conn j a) : s'.conns[j]? = some c := by
  have bound := (List.getElem?_eq_some_iff.mp here).1
  cases label with
  | main a =>
    rcases mainStep_cases taken with ⟨tls, -, rfl⟩ | ⟨main, version, strong, rfl, -⟩
    · exact here
    · exact here
  | listener i a =>
    obtain ⟨l, -, moved⟩ := Option.bind_eq_some_iff.mp taken
    obtain ⟨phase, strong, conns, rfl, -⟩ := listenerStep_cases moved
    exact (List.getElem?_append_left bound).trans here
  | conn k a =>
    obtain ⟨d, -, moved⟩ := Option.bind_eq_some_iff.mp taken
    obtain ⟨phase, strong, rfl, -⟩ := connStep_cases moved
    have apart : k ≠ j := by
      rintro rfl
      exact other a rfl
    exact (List.getElem?_set_ne apart).trans here

/-- The listener has observed the signal. -/
def State.Left (s : State) (i : Nat) : Prop :=
  ∃ l, s.listeners[i]? = some l ∧ (l.phase = .leaving ∨ l.phase = .returned)

theorem left_step {label : Label} (taken : s.step label = some s') {i : Nat} (left : s.Left i) : s'.Left i := by
  obtain ⟨l, here, gone⟩ := left
  have bound := (List.getElem?_eq_some_iff.mp here).1
  cases label with
  | main a =>
    rcases mainStep_cases taken with ⟨tls, -, rfl⟩ | ⟨main, version, strong, rfl, -⟩
    · exact ⟨l, (List.getElem?_append_left bound).trans here, gone⟩
    · exact ⟨l, here, gone⟩
  | listener k a =>
    obtain ⟨m, there, moved⟩ := Option.bind_eq_some_iff.mp taken
    obtain ⟨phase, strong, conns, rfl, -, -, returns, -, -⟩ := listenerStep_cases moved
    by_cases this : k = i
    · subst this
      cases here.symm.trans there
      exact ⟨{ l with phase }, List.getElem?_set_self bound, .inr (returns gone)⟩
    · exact ⟨l, (List.getElem?_set_ne this).trans here, gone⟩
  | conn j a =>
    obtain ⟨c, -, moved⟩ := Option.bind_eq_some_iff.mp taken
    obtain ⟨phase, strong, rfl, -⟩ := connStep_cases moved
    exact ⟨l, here, gone⟩

theorem observe_left {i : Nat} (taken : s.step (.listener i .observe) = some s') : s'.Left i := by
  obtain ⟨l, here, moved⟩ := Option.bind_eq_some_iff.mp taken
  obtain ⟨phase, strong, conns, rfl, -, -, -, leaves, -⟩ := listenerStep_cases moved
  have bound := (List.getElem?_eq_some_iff.mp here).1
  exact ⟨{ l with phase }, List.getElem?_set_self bound, .inl (leaves rfl)⟩

theorem left_accepts {i : Nat} (left : s.Left i) : s.step (.listener i .accept) ≠ some s' := by
  intro taken
  obtain ⟨l, here, gone⟩ := left
  obtain ⟨m, there, moved⟩ := Option.bind_eq_some_iff.mp taken
  obtain ⟨-, -, -, -, -, -, -, -, accepts⟩ := listenerStep_cases moved
  obtain ⟨seen, accepting⟩ := accepts rfl
  cases here.symm.trans there
  rcases gone with leaving | returned
  · cases accepting.symm.trans leaving
  · cases accepting.symm.trans returned

/-! ## Leaving the drain loop -/

theorem returned_stays {i : Nat} {l : Listener} {a : ListenerStep} (returned : l.phase = .returned) :
    s.listenerStep i l a = none := by
  unfold State.listenerStep
  rw [returned]
  cases a <;> rfl

theorem finished_stays {j : Nat} {c : Connection} {a : ConnStep} (finished : c.phase = .finished) :
    s.connStep j c a = none := by
  unfold State.connStep
  rw [finished]
  cases a <;> rfl

/-- When the loop is left before its deadline nothing is running, and nothing starts again. -/
theorem left_idle (inv : Inv s) (idle : s.main = .left false → ¬ s.Busy) {label : Label}
    (taken : s.step label = some s') (left : s'.main = .left false) : ¬ s'.Busy := by
  cases label with
  | main a =>
    rcases mainStep_cases taken with ⟨tls, starting, rfl⟩ | ⟨main, version, strong, rfl, -, -, leaves⟩
    · cases starting.symm.trans left
    · obtain ⟨draining, few⟩ := leaves left
      intro busy
      have more := (count_iff inv (by rw [draining]; rfl)).mpr busy
      omega
  | listener i a =>
    obtain ⟨l, here, moved⟩ := Option.bind_eq_some_iff.mp taken
    have before : ¬s.Busy := by
      obtain ⟨phase, strong, conns, rfl, -⟩ := listenerStep_cases moved
      exact idle left
    by_cases returned : l.phase = .returned
    · rw [returned_stays returned] at moved
      cases moved
    · exact absurd (.inl ⟨l, List.mem_of_getElem? here, returned⟩) before
  | conn j a =>
    obtain ⟨c, here, moved⟩ := Option.bind_eq_some_iff.mp taken
    have before : ¬s.Busy := by
      obtain ⟨phase, strong, rfl, -⟩ := connStep_cases moved
      exact idle left
    by_cases finished : c.phase = .finished
    · rw [finished_stays finished] at moved
      cases moved
    · exact absurd (.inr ⟨c, List.mem_of_getElem? here, finished⟩) before

/-! ## The signal -/

theorem sent_newer (inv : Inv s) (sent : s.main.hasSent) : 0 < s.version := by
  have version := inv.version
  rw [if_pos sent] at version
  rw [version]
  exact Nat.one_pos

theorem serving_observes (inv : Inv s) (sent : s.main.hasSent) {j seen : Nat} {c : Connection}
    (here : s.conns[j]? = some c) (serving : c.phase = .serving seen) : (s.step (.conn j .observe)).isSome := by
  have unseen := (inv.conns c (List.mem_of_getElem? here)).2
  rw [serving] at unseen
  have newer : seen < s.version := by
    rw [show seen = 0 from unseen]
    exact sent_newer inv sent
  simp only [State.step, here, Option.bind_some, State.connStep, serving, if_pos newer, Option.isSome_some]

theorem accepting_observes (inv : Inv s) (sent : s.main.hasSent) {i seen : Nat} {l : Listener}
    (here : s.listeners[i]? = some l) (accepting : l.phase = .accepting seen) :
    (s.step (.listener i .observe)).isSome := by
  have unseen := (inv.listeners l (List.mem_of_getElem? here)).2
  rw [accepting] at unseen
  have newer : seen < s.version := by
    rw [show seen = 0 from unseen]
    exact sent_newer inv sent
  simp only [State.step, here, Option.bind_some, State.listenerStep, accepting, if_pos newer, Option.isSome_some]

/-- In `select!` a connection's task can do two things. -/
theorem serving_moves {j seen : Nat} {c : Connection} (here : s.conns[j]? = some c) (serving : c.phase = .serving seen)
    {a : ConnStep} (taken : s.step (.conn j a) = some s') : a = .observe ∨ a = .complete := by
  obtain ⟨d, there, moved⟩ := Option.bind_eq_some_iff.mp taken
  cases here.symm.trans there
  unfold State.connStep at moved
  rw [serving] at moved
  cases a with
  | observe => exact .inl rfl
  | complete => exact .inr rfl
  | failHandshake | enter | guard | subscribe | dropGuard | dropHandler => cases moved

end

/-! ## Executions -/

/-- An execution: each step is the step of a task, or nothing happens. -/
structure Execution where
  states : Nat → State
  labels : Nat → Option Label
  starts : states 0 = init
  follows : ∀ n, (labels n).elim (some (states n)) (states n).step = some (states (n + 1))

namespace Execution

/-- The execution that takes these steps and no more. -/
def ofRun (labels : List Label) (whole : (init.run labels).isSome) : Execution where
  states n := (init.run (labels.take n)).getD init
  labels n := labels[n]?
  starts := by rw [List.take_zero, State.run, Option.getD_some]
  follows := by
    intro n
    have begun : ∃ s, init.run (labels.take n) = some s := by
      rw [← List.take_append_drop n labels, run_append] at whole
      exact Option.isSome_iff_exists.mp (Option.isSome_of_isSome_bind whole)
    obtain ⟨s, here⟩ := begun
    rw [here, List.take_add_one, run_append, here, Option.bind_some, Option.getD_some]
    cases taken : labels[n]? with
    | none => rfl
    | some label =>
      rw [← List.take_append_drop n labels, run_append, here, Option.bind_some,
        List.drop_eq_getElem?_toList_append, taken] at whole
      obtain ⟨next, moved⟩ := Option.isSome_iff_exists.mp (Option.isSome_of_isSome_bind whole)
      simp only [Option.elim_some, Option.toList_some, State.run, moved, Option.bind_some, Option.getD_some]

/-- The scheduler runs the task of the connection when it has been woken by the signal. -/
def Fair (e : Execution) (j : Nat) : Prop :=
  ∀ n, (∀ m, n ≤ m → ((e.states m).step (.conn j .observe)).isSome) → ∃ m, n ≤ m ∧ ∃ a, e.labels m = some (.conn j a)

variable (e : Execution)

theorem next (n : Nat) : e.states (n + 1) = e.states n ∨
    ∃ label, e.labels n = some label ∧ (e.states n).step label = some (e.states (n + 1)) := by
  have follows := e.follows n
  cases taken : e.labels n with
  | none =>
    rw [taken] at follows
    exact .inl (Option.some.inj follows).symm
  | some label =>
    rw [taken] at follows
    exact .inr ⟨label, rfl, follows⟩

/-- What the initial state has and each step keeps, every state has. -/
theorem always {p : State → Prop} (start : p init)
    (keeps : ∀ {s s' : State} {label : Label}, s.step label = some s' → p s → p s') (n : Nat) : p (e.states n) := by
  induction n with
  | zero =>
    rw [e.starts]
    exact start
  | succ n ih =>
    rcases e.next n with same | ⟨label, -, taken⟩
    · rw [same]
      exact ih
    · exact keeps taken ih

/-- What each step keeps, all later states have. -/
theorem onwards {p : State → Prop} (keeps : ∀ {s s' : State} {label : Label}, s.step label = some s' → p s → p s')
    {n m : Nat} (later : n ≤ m) (now : p (e.states n)) : p (e.states m) := by
  induction m, later using Nat.le_induction with
  | base => exact now
  | succ m later ih =>
    rcases e.next m with same | ⟨label, -, taken⟩
    · rw [same]
      exact ih
    · exact keeps taken ih

theorem inv (n : Nat) : Inv (e.states n) := e.always inv_init (fun taken inv => step_inv inv taken) n

theorem idle (n : Nat) : (e.states n).main = .left false → ¬ (e.states n).Busy := by
  have both := e.always (p := fun s => Inv s ∧ (s.main = .left false → ¬ s.Busy)) ⟨inv_init, fun left => by cases left⟩
    (fun taken kept => ⟨step_inv kept.1 taken, left_idle kept.1 kept.2 taken⟩) n
  exact both.2

/-- Behind the signal a served connection does not stay in `select!`. -/
theorem serving_ends {n j seen : Nat} {c : Connection} (sent : (e.states n).main.hasSent)
    (here : (e.states n).conns[j]? = some c) (serving : c.phase = .serving seen) (fair : e.Fair j) :
    ∃ m, n ≤ m ∧ (e.labels m = some (.conn j .observe) ∨ e.labels m = some (.conn j .complete)) := by
  by_contra never
  have moves : ∀ m a, n ≤ m → (e.states m).conns[j]? = some c → e.labels m ≠ some (.conn j a) := by
    intro m a later there own
    have taken := e.follows m
    rw [own] at taken
    rcases serving_moves there serving taken with rfl | rfl
    · exact never ⟨m, later, .inl own⟩
    · exact never ⟨m, later, .inr own⟩
  have stays : ∀ m, n ≤ m → (e.states m).conns[j]? = some c := by
    intro m later
    induction m, later using Nat.le_induction with
    | base => exact here
    | succ m later ih =>
      rcases e.next m with same | ⟨label, own, taken⟩
      · rw [same]
        exact ih
      · refine conn_step taken ih ?_
        rintro a rfl
        exact moves m a later ih own
  obtain ⟨m, later, a, own⟩ := fair n fun m later =>
    serving_observes (e.inv m) (e.onwards sent_step later sent) (stays m later) serving
  exact moves m a later (stays m later) own

end Execution

/-- The drain is safe: the count says whether something is running, the loop is left before its
    deadline only when nothing is, the signal reaches every listener and every connection, those
    included that subscribe after it, and a listener that has observed it accepts no more. -/
theorem drain_safe (e : Execution) :
    (∀ n, (e.states n).main.hasDropped → (1 < (e.states n).strong ↔ (e.states n).Busy)) ∧
      (∀ n, (e.states n).main = .left false → ¬ (e.states n).Busy) ∧
      (∀ n j seen c, (e.states n).main.hasSent → (e.states n).conns[j]? = some c → c.phase = .serving seen →
        ((e.states n).step (.conn j .observe)).isSome ∧
          (e.Fair j → ∃ m, n ≤ m ∧ (e.labels m = some (.conn j .observe) ∨ e.labels m = some (.conn j .complete)))) ∧
      (∀ n i seen l, (e.states n).main.hasSent → (e.states n).listeners[i]? = some l → l.phase = .accepting seen →
        ((e.states n).step (.listener i .observe)).isSome) ∧
      ∀ n m i, e.labels n = some (.listener i .observe) → n < m → e.labels m ≠ some (.listener i .accept) := by
  refine ⟨fun n => count_iff (e.inv n), e.idle, ?_, ?_, ?_⟩
  · intro n j seen c sent here serving
    exact ⟨serving_observes (e.inv n) sent here serving, e.serving_ends sent here serving⟩
  · intro n i seen l sent here accepting
    exact accepting_observes (e.inv n) sent here accepting
  · intro n m i observed later accepted
    have left := e.follows n
    rw [observed] at left
    have still := e.onwards (p := fun s => s.Left i) (fun taken left => left_step taken left) later (observe_left left)
    have taken := e.follows m
    rw [accepted] at taken
    exact left_accepts still taken

/-- A stream is in the listener's hand when the signal is sent, and its connection subscribes
    when the main task is already in the drain loop. -/
def late : List Label :=
  [.main (.spawnListener true), .listener 0 .subscribe, .main .ready, .listener 0 .accept, .main .signal, .main .send,
    .main .track, .main .dropHandler, .listener 0 .cloneHandler, .listener 0 .dispatch, .listener 0 .observe,
    .listener 0 .exit, .main .sleep, .conn 0 .enter, .conn 0 .guard, .conn 0 .subscribe, .main .sleep, .conn 0 .observe,
    .conn 0 .complete, .conn 0 .dropGuard, .main .sleep, .conn 0 .dropHandler, .main .leave]

def lateRun : Execution := .ofRun late (by decide)

theorem drain_safe_late :
    (lateRun.states 12).Busy ∧ ((lateRun.states 16).step (.conn 0 .observe)).isSome ∧ ¬ (lateRun.states 23).Busy := by
  obtain ⟨counts, idle, signals, -, -⟩ := drain_safe lateRun
  refine ⟨(counts 12 (by decide)).mp (by decide), ?_, idle 23 (by decide)⟩
  exact (signals 16 0 0 ⟨⟨0⟩, true, .serving 0⟩ (by decide) (by decide) rfl).1

end Torana.Drain
