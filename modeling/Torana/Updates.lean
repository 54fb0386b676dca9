import Mathlib.Data.List.Chain
import Torana.Verdicts

/-!
Concurrent calls of the health registry. Any number of tasks call `set` and `is_healthy` on any
addresses, each one call after the other, and their steps interleave in any order. Between the
read lock and the write lock another task may insert the flag; the call then gets that one.
-/
namespace Torana
namespace Updates
open Verdicts

/-! ## Callers -/

inductive Call where
  | set (addr : String) (healthy : Bool)
  | isHealthy (addr : String)
  deriving DecidableEq

def Call.run : Call → Program Unit
  | .set addr healthy => Health.set addr healthy
  | .isHealthy addr => do
    let _ ← call (.isHealthy addr)
    return ()

def runCalls : List Call → Program Unit
  | [] => return ()
  | first :: rest => do
    first.run
    runCalls rest

/-- The calls of every task, on a registry. -/
def world (calls : Nat → List Call) (s : Store) : System.World where
  state := s
  threads
    | .request n => runCalls (calls n)
    | _ => return ()
  log := []

/-! ## Places -/

/-- Where a caller is: between two calls, or in a call of `set` behind its look-up that found
    nothing, behind the flag that it has, or behind the swap that changed the flag. -/
inductive Place where
  | between (calls : List Call)
  | inserting (addr : String) (healthy : Bool) (rest : List Call)
  | swapping (addr : String) (flag : Nat) (healthy : Bool) (rest : List Call)
  | logging (addr : String) (healthy : Bool) (rest : List Call)

/-- The rest of `set` once it has the flag. -/
def swap (addr : String) (healthy : Bool) (flag : Nat) : Program Unit := do
  let wasHealthy ← call (.swapFlag addr flag healthy)
  if wasHealthy ≠ healthy then call (.logTransition addr healthy)

/-- What is left to do. -/
def Place.program : Place → Program Unit
  | .between calls => runCalls calls
  | .inserting addr healthy rest => do
    (do swap addr healthy (← call (.getOrInsertFlag addr)))
    runCalls rest
  | .swapping addr flag healthy rest => do
    swap addr healthy flag
    runCalls rest
  | .logging addr healthy rest => do
    call (.logTransition addr healthy)
    runCalls rest

/-- One step of a caller. -/
inductive Next : Place → Event Act.Res → Place → Prop where
  | read (addr : String) (rest : List Call) (answer : Bool) :
    Next (.between (.isHealthy addr :: rest)) ⟨.isHealthy addr, answer⟩ (.between rest)
  | missed (addr : String) (healthy : Bool) (rest : List Call) :
    Next (.between (.set addr healthy :: rest)) ⟨.getFlag addr, none⟩ (.inserting addr healthy rest)
  | looked (addr : String) (healthy : Bool) (rest : List Call) (flag : Nat) :
    Next (.between (.set addr healthy :: rest)) ⟨.getFlag addr, some flag⟩ (.swapping addr flag healthy rest)
  | inserted (addr : String) (healthy : Bool) (rest : List Call) (flag : Nat) :
    Next (.inserting addr healthy rest) ⟨.getOrInsertFlag addr, flag⟩ (.swapping addr flag healthy rest)
  | changed (addr : String) (flag : Nat) (healthy : Bool) (rest : List Call) :
    Next (.swapping addr flag healthy rest) ⟨.swapFlag addr flag healthy, !healthy⟩ (.logging addr healthy rest)
  | same (addr : String) (flag : Nat) (healthy : Bool) (rest : List Call) :
    Next (.swapping addr flag healthy rest) ⟨.swapFlag addr flag healthy, healthy⟩ (.between rest)
  | logged (addr : String) (healthy : Bool) (rest : List Call) :
    Next (.logging addr healthy rest) ⟨.logTransition addr healthy, ()⟩ (.between rest)

/-- Every step from a place leads to the next one. -/
theorem next_of_act {place : Place} {a : Act} {next : a.Res → Program Unit} (head : place.program = .act a next)
    (r : a.Res) : ∃ place', Next place ⟨a, r⟩ place' ∧ next r = place'.program := by
  cases place with
  | between calls =>
    cases calls with
    | nil => cases head
    | cons first rest =>
      cases first with
      | isHealthy addr =>
        cases head
        exact ⟨_, .read addr rest r, rfl⟩
      | set addr healthy =>
        cases head
        cases r with
        | none => exact ⟨_, .missed addr healthy rest, rfl⟩
        | some flag => exact ⟨_, .looked addr healthy rest flag, rfl⟩
  | inserting addr healthy rest =>
    cases head
    exact ⟨_, .inserted addr healthy rest r, rfl⟩
  | swapping addr flag healthy rest =>
    cases head
    cases r <;> cases healthy
    · exact ⟨_, .same addr flag false rest, rfl⟩
    · exact ⟨_, .changed addr flag true rest, rfl⟩
    · exact ⟨_, .changed addr flag false rest, rfl⟩
    · exact ⟨_, .same addr flag true rest, rfl⟩
  | logging addr healthy rest =>
    cases head
    exact ⟨_, .logged addr healthy rest, rfl⟩

/-- A caller that swaps has the flag. -/
theorem next_swap {place place' : Place} {e : Event Act.Res} (next : Next place e place') {addr : String} {flag : Nat}
    {healthy : Bool} (swaps : e.act = .swapFlag addr flag healthy) :
    ∃ rest, place = .swapping addr flag healthy rest := by
  cases next <;> cases swaps <;> exact ⟨_, rfl⟩

/-! ## Swaps, transitions and log lines -/

def setOf : Call → Option (String × Bool)
  | .set addr healthy => some (addr, healthy)
  | .isHealthy _ => none

/-- What the calls write, in order. -/
def sets (calls : List Call) : List (String × Bool) := calls.filterMap setOf

/-- What is still to be written. -/
def Place.sets : Place → List (String × Bool)
  | .between calls => Updates.sets calls
  | .inserting addr healthy rest => (addr, healthy) :: Updates.sets rest
  | .swapping addr _ healthy rest => (addr, healthy) :: Updates.sets rest
  | .logging _ _ rest => Updates.sets rest

/-- What one caller has written, in order. -/
def swapsBy (n : Nat) (log : List (Tid × Event Act.Res)) : List (String × Bool) :=
  (Pool.own (.request n) log).filterMap swapOf

/-- The swap of a flag of the address that changes the flag. -/
def transitionOf (addr : String) : Event Act.Res → Option Bool
  | ⟨.swapFlag addr' _ healthy, before⟩ => if addr' = addr ∧ before ≠ healthy then some healthy else none
  | _ => none

def lineOf (addr : String) : Event Act.Res → Option Bool
  | ⟨.logTransition addr' healthy, _⟩ => if addr' = addr then some healthy else none
  | _ => none

/-- The transitions of an address, in the order of the swaps. -/
def transitions (addr : String) (log : List (Tid × Event Act.Res)) : List Bool :=
  log.filterMap fun entry => transitionOf addr entry.2

/-- The lines that were logged for an address. -/
def lines (addr : String) (log : List (Tid × Event Act.Res)) : List Bool :=
  log.filterMap fun entry => lineOf addr entry.2

theorem next_sets {place place' : Place} {e : Event Act.Res} (next : Next place e place') :
    (swapOf e).toList ++ place'.sets = place.sets := by
  cases next <;> rfl

/-- Transitions alternate, healthy first, and the last of them is what was written last. -/
def Turns (log : List (Tid × Event Act.Res)) : Prop :=
  ∀ addr, (true :: transitions addr log).IsChain (· ≠ ·) ∧
    (true :: transitions addr log).getLast? = some ((lastSwap addr log).getD true)

variable {log : List (Tid × Event Act.Res)} {t : Tid}

theorem turns_other {e : Event Act.Res} (turns : Turns log) (other : isSwap e.act = false) :
    Turns (log ++ [(t, e)]) := by
  have unlined : ∀ addr, transitionOf addr e = none := by
    intro addr
    obtain ⟨a, r⟩ := e
    cases a <;> first | rfl | cases other
  intro addr
  have same : transitions addr (log ++ [(t, e)]) = transitions addr log := by simp [transitions, unlined addr]
  rw [same, lastSwap, swaps_other other]
  exact turns addr

/-- A swap that changes the flag is the next transition of its address. -/
theorem turns_swap {addr : String} {flag : Nat} {healthy before : Bool} (turns : Turns log)
    (reads : before = (lastSwap addr log).getD true) :
    Turns (log ++ [(t, ⟨.swapFlag addr flag healthy, before⟩)]) := by
  intro addr'
  obtain ⟨chain, last⟩ := turns addr'
  have grown : transitions addr' (log ++ [(t, ⟨.swapFlag addr flag healthy, before⟩)]) =
      transitions addr' log ++ (if addr = addr' ∧ before ≠ healthy then some healthy else none).toList := by
    rw [transitions, List.filterMap_append]
    rfl
  rw [grown, lastSwap_swap]
  by_cases same : addr' = addr
  · subst same
    rw [if_pos rfl]
    by_cases changed : before = healthy
    · rw [if_neg (by simp [changed]), Option.toList_none, List.append_nil, last, ← reads, changed]
      exact ⟨chain, rfl⟩
    · rw [if_pos ⟨rfl, changed⟩, Option.toList_some, ← List.cons_append]
      refine ⟨List.isChain_append.mpr ⟨chain, List.isChain_singleton _, ?_⟩, List.getLast?_concat⟩
      intro x isLast y isFirst
      rw [last, Option.mem_some_iff] at isLast
      rw [List.head?_cons, Option.mem_some_iff] at isFirst
      rw [← isLast, ← isFirst, ← reads]
      exact changed
  · rw [if_neg same, if_neg (by simp [Ne.symm same]), Option.toList_none, List.append_nil]
    exact ⟨chain, last⟩

/-! ## What holds of the callers and the registry -/

variable {crates : Crates} {o : Outside} {calls : Nat → List Call} {places : Nat → Place} {w w' : System.World}

/-- A flag that is installed is never replaced. -/
theorem flags_kept {a : Act} {r : a.Res} {s s' : Store} {addr : String} {flag : Nat}
    (done : perform crates o t a s = some (r, s')) (held : s.flags.get addr = some flag) :
    s'.flags.get addr = some flag := by
  rcases (perform_changes done).flags with ⟨same, -⟩ | ⟨addr', rfl⟩
  · rw [same]
    exact held
  · rcases perform_getOrInsertFlag done with ⟨-, rfl⟩ | ⟨absent, -, rfl⟩
    · exact held
    · have other : addr ≠ addr' := by
        rintro rfl
        rw [held] at absent
        cases absent
      exact (Table.get_insert_ne _ _ other).trans held

/-- The callers at their places, with the flags that their calls have and what they wrote. -/
structure Callers (calls : Nat → List Call) (places : Nat → Place) (w : System.World) : Prop where
  here : ∀ n, w.threads (.request n) = (places n).program
  idle : ∀ t, (∀ n, t ≠ .request n) → w.threads t = .ret ()
  owns : ∀ n addr flag healthy rest, places n = .swapping addr flag healthy rest → w.state.flags.get addr = some flag
  wrote : ∀ n, swapsBy n w.log ++ (places n).sets = sets (calls n)
  theirs : ∀ entry ∈ w.log, ∃ n, entry.1 = .request n
  held : Held w
  turns : Turns w.log

theorem callers_start {s : Store} (empty : s.flags = Table.empty) :
    Callers calls (fun n => .between (calls n)) (world calls s) where
  here _ := rfl
  idle t other := by
    cases t with
    | request n => exact absurd rfl (other n)
    | _ => rfl
  owns _ _ _ _ _ never := by cases never
  wrote _ := rfl
  theirs _ member := by cases member
  held := held_empty empty rfl
  turns _ := ⟨List.isChain_singleton _, rfl⟩

/-- A step of the world is a step of one caller. -/
theorem callers_next (callers : Callers calls places w) (taken : Pool.step (perform crates) o t w = some w') :
    ∃ n e place' s', t = .request n ∧ Next (places n) e place' ∧
      perform crates o (.request n) e.act w.state = some (e.answer, s') ∧
      w' = ⟨s', Function.update w.threads (.request n) place'.program, w.log ++ [(.request n, e)]⟩ := by
  obtain ⟨a, next, r, s', head, done, rfl⟩ := Pool.step_cases taken
  cases t with
  | request n =>
    rw [callers.here n] at head
    obtain ⟨place', follows, same⟩ := next_of_act head r
    exact ⟨n, ⟨a, r⟩, place', s', rfl, follows, done, by rw [same]⟩
  | _ =>
    rw [callers.idle _ (fun n same => by cases same)] at head
    cases head

/-- A call that has a flag has the one of its address. -/
theorem owns_next {place place' : Place} {e : Event Act.Res} {s s' : Store} (next : Next place e place')
    (done : perform crates o t e.act s = some (e.answer, s')) {addr : String} {flag : Nat} {healthy : Bool}
    {rest : List Call} (here : place' = .swapping addr flag healthy rest) : s'.flags.get addr = some flag := by
  cases next with
  | looked =>
    cases here
    obtain ⟨found, rfl⟩ := perform_getFlag done
    exact found.symm
  | inserted =>
    cases here
    rcases perform_getOrInsertFlag done with ⟨present, rfl⟩ | ⟨-, -, rfl⟩
    · exact present
    · exact Table.get_insert_self _ _ _
  | _ => cases here

/-- What a swap finds in the flag is what was written last. -/
theorem turns_next {n : Nat} {place' : Place} {e : Event Act.Res} {s' : Store} (callers : Callers calls places w)
    (next : Next (places n) e place') (done : perform crates o t e.act w.state = some (e.answer, s')) :
    Turns (w.log ++ [(.request n, e)]) := by
  have reads : ∀ {addr : String} {flag : Nat} {healthy before : Bool} {rest : List Call},
      places n = .swapping addr flag healthy rest →
      perform crates o t (.swapFlag addr flag healthy) w.state = some (before, s') →
      before = (lastSwap addr w.log).getD true := by
    intro addr flag healthy before rest here done
    have owned := callers.owns n addr flag healthy rest here
    rw [← callers.held.latest, Store.isHealthy, owned, perform_swapFlag_before done]
  generalize places n = place at next reads
  cases next with
  | changed => exact turns_swap callers.turns (reads rfl done)
  | same => exact turns_swap callers.turns (reads rfl done)
  | _ => exact turns_other callers.turns rfl

theorem wrote_next {n : Nat} {place' : Place} {e : Event Act.Res} (callers : Callers calls places w)
    (next : Next (places n) e place') (m : Nat) :
    swapsBy m (w.log ++ [(.request n, e)]) ++ (Function.update places n place' m).sets = sets (calls m) := by
  rw [swapsBy, Pool.own_append, List.filterMap_append, ← swapsBy]
  by_cases same : m = n
  · subst same
    have step : (swapOf e).toList ++ place'.sets = (places m).sets := next_sets next
    have single : [e].filterMap swapOf = (swapOf e).toList := by
      cases written : swapOf e <;> simp [written]
    rw [Pool.own_single_self, Function.update_self, single, List.append_assoc, step]
    exact callers.wrote m
  · have other : Tid.request n ≠ Tid.request m := by
      rintro ⟨⟩
      exact same rfl
    rw [Pool.own_single_other e other, Function.update_of_ne same]
    simpa using callers.wrote m

theorem callers_step {n : Nat} {place' : Place} {e : Event Act.Res} {s' : Store} (callers : Callers calls places w)
    (taken : Pool.step (perform crates) o (.request n) w =
      some ⟨s', Function.update w.threads (.request n) place'.program, w.log ++ [(.request n, e)]⟩)
    (next : Next (places n) e place') (done : perform crates o (.request n) e.act w.state = some (e.answer, s')) :
    Callers calls (Function.update places n place')
      ⟨s', Function.update w.threads (.request n) place'.program, w.log ++ [(.request n, e)]⟩ where
  here m := by
    by_cases same : m = n
    · subst same
      simp
    · have other : Tid.request m ≠ Tid.request n := by
        rintro ⟨⟩
        exact same rfl
      simp only [Function.update_of_ne same, Function.update_of_ne other]
      exact callers.here m
  idle t other := by
    simp only [Function.update_of_ne (other n)]
    exact callers.idle t other
  owns m addr flag healthy rest here := by
    by_cases same : m = n
    · subst same
      rw [Function.update_self] at here
      exact owns_next next done here
    · rw [Function.update_of_ne same] at here
      exact flags_kept done (callers.owns m addr flag healthy rest here)
  wrote m := wrote_next callers next m
  theirs entry member := by
    rcases List.mem_append.mp member with earlier | last
    · exact callers.theirs entry earlier
    · exact ⟨n, by rw [List.mem_singleton.mp last]⟩
  held := by
    refine held_step callers.held taken ?_
    intro addr flag healthy after head
    rw [callers.here n] at head
    obtain ⟨place, swaps, -⟩ := next_of_act head true
    obtain ⟨rest, here⟩ := next_swap swaps rfl
    exact callers.owns n addr flag healthy rest here
  turns := turns_next callers next done

/-- In every interleaving of the calls. -/
theorem callers_reach {meets : System.World → Tid → Prop} {s : Store} (empty : s.flags = Table.empty)
    (reaches : Pool.Reaches (perform crates) meets (world calls s) w) : ∃ places, Callers calls places w := by
  refine Pool.reaches_invariant (fun w => ∃ places, Callers calls places w) ⟨_, callers_start empty⟩ ?_ reaches
  rintro o t w₁ w₂ - ⟨places, callers⟩ - taken
  obtain ⟨n, e, place', s', rfl, next, done, rfl⟩ := callers_next callers taken
  exact ⟨_, callers_step callers taken next done⟩

/-! ## Lines in the order of the swaps -/

/-- No other caller is between its swap and the line for it: the swap and its line are one step. -/
def Whole (w : System.World) (t : Tid) : Prop :=
  ∀ t' addr healthy next, t' ≠ t → w.threads t' ≠ .act (.logTransition addr healthy) next

/-- The transition whose line the caller is about to log. -/
def Place.unlogged (addr : String) : Place → List Bool
  | .logging addr' healthy _ => if addr' = addr then [healthy] else []
  | _ => []

def Place.isLogging : Place → Bool
  | .logging _ _ _ => true
  | _ => false

/-- The lines are the transitions, up to one that one caller is about to log. -/
def Lined (places : Nat → Place) (log : List (Tid × Event Act.Res)) : Prop :=
  ∃ n, (∀ m, m ≠ n → (places m).isLogging = false) ∧
    ∀ addr, transitions addr log = lines addr log ++ (places n).unlogged addr

theorem unlogged_nil {place : Place} (settled : place.isLogging = false) (addr : String) :
    place.unlogged addr = [] := by
  cases place <;> first | rfl | cases settled

/-- The caller that steps is the one that is about to log, if there is one. -/
theorem lined_turn (lined : Lined places log) {n : Nat} (alone : ∀ m, m ≠ n → (places m).isLogging = false)
    (addr : String) : transitions addr log = lines addr log ++ (places n).unlogged addr := by
  obtain ⟨n', others, same⟩ := lined
  by_cases turn : n' = n
  · rw [← turn]
    exact same addr
  · rw [same addr, unlogged_nil (alone n' turn), unlogged_nil (others n (Ne.symm turn))]

/-- What a step adds to the lines and to the transitions. -/
theorem next_unlogged {place place' : Place} {e : Event Act.Res} (next : Next place e place') (addr : String) :
    place.unlogged addr ++ (transitionOf addr e).toList = (lineOf addr e).toList ++ place'.unlogged addr := by
  cases next with
  | changed addr' flag healthy rest =>
    have differs : (!healthy) ≠ healthy := by simp
    simp only [Place.unlogged, transitionOf, lineOf, differs, ne_eq, not_false_eq_true, and_true]
    by_cases mine : addr' = addr <;> simp [mine]
  | logged addr' healthy rest =>
    simp only [Place.unlogged, transitionOf, lineOf]
    by_cases mine : addr' = addr <;> simp [mine]
  | same addr' flag healthy rest => simp [Place.unlogged, transitionOf, lineOf]
  | _ => rfl

theorem lined_step {n : Nat} {place' : Place} {e : Event Act.Res} (callers : Callers calls places w)
    (lined : Lined places w.log) (whole : Whole w (.request n)) (next : Next (places n) e place') :
    Lined (Function.update places n place') (w.log ++ [(.request n, e)]) := by
  have alone : ∀ m, m ≠ n → (places m).isLogging = false := by
    intro m other
    have here := callers.here m
    cases at_place : places m with
    | logging addr healthy rest =>
      rw [at_place] at here
      refine absurd here (whole _ addr healthy _ ?_)
      rintro ⟨⟩
      exact other rfl
    | _ => rfl
  refine ⟨n, ?_, ?_⟩
  · intro m other
    rw [Function.update_of_ne other]
    exact alone m other
  · intro addr
    have before := lined_turn lined alone addr
    have step := next_unlogged next addr
    have transition : transitions addr (w.log ++ [(.request n, e)]) =
        transitions addr w.log ++ (transitionOf addr e).toList := by
      cases changed : transitionOf addr e <;> simp [transitions, changed]
    have line : lines addr (w.log ++ [(.request n, e)]) = lines addr w.log ++ (lineOf addr e).toList := by
      cases logged : lineOf addr e <;> simp [lines, logged]
    rw [transition, line, before, List.append_assoc, step, Function.update_self, List.append_assoc]

theorem lined_reach {s : Store} (empty : s.flags = Table.empty)
    (reaches : Pool.Reaches (perform crates) Whole (world calls s) w) :
    ∃ places, Callers calls places w ∧ Lined places w.log := by
  refine Pool.reaches_invariant (fun w => ∃ places, Callers calls places w ∧ Lined places w.log)
    ⟨_, callers_start empty, 0, fun _ _ => rfl, fun _ => rfl⟩ ?_ reaches
  rintro o t w₁ w₂ - ⟨places, callers, lined⟩ whole taken
  obtain ⟨n, e, place', s', rfl, next, done, rfl⟩ := callers_next callers taken
  exact ⟨_, callers_step callers taken next done, lined_step callers lined whole next⟩

/-! ## No update is lost -/

theorem flags_persist {meets : System.World → Tid → Prop} (reaches : Pool.Reaches (perform crates) meets w w')
    {addr : String} {flag : Nat} (held : w.state.flags.get addr = some flag) : w'.state.flags.get addr = some flag := by
  refine Pool.reaches_invariant (fun w => w.state.flags.get addr = some flag) held ?_ reaches
  intro o t w₁ w₂ _ here _ taken
  obtain ⟨a, next, r, s', -, done, rfl⟩ := Pool.step_cases taken
  exact flags_kept done here

theorem sets_mem {list : List Call} {addr : String} {healthy : Bool} (member : (addr, healthy) ∈ sets list) :
    .set addr healthy ∈ list := by
  obtain ⟨one, listed, same⟩ := List.mem_filterMap.mp member
  cases one with
  | set addr' healthy' =>
    cases same
    exact listed
  | isHealthy addr' => cases same

/-- What was written was asked for by a call. -/
theorem swap_asked (callers : Callers calls places w) {addr : String} {healthy : Bool}
    (written : (addr, healthy) ∈ swaps w.log) : ∃ n, .set addr healthy ∈ calls n := by
  obtain ⟨⟨t, e⟩, logged, swapped⟩ := List.mem_filterMap.mp written
  obtain ⟨n, rfl⟩ := callers.theirs _ logged
  have mine : (addr, healthy) ∈ swapsBy n w.log :=
    List.mem_filterMap.mpr ⟨e, Pool.mem_own.mpr logged, swapped⟩
  refine ⟨n, sets_mem ?_⟩
  rw [← callers.wrote n]
  exact List.mem_append_left _ mine

theorem unset_healthy (callers : Callers calls places w) {addr : String}
    (unset : ∀ n healthy, .set addr healthy ∉ calls n) : w.state.isHealthy addr = true := by
  rw [callers.held.latest]
  cases last : lastSwap addr w.log with
  | none => rfl
  | some healthy =>
    obtain ⟨before, after, split, -⟩ := List.lookup_eq_some_iff.mp last
    have written : (addr, healthy) ∈ swaps w.log := by
      rw [← List.mem_reverse, split]
      simp
    obtain ⟨n, asked⟩ := swap_asked callers written
    exact absurd asked (unset n healthy)

/-- A caller that has come to its end has written what its calls were to write. -/
theorem finished_wrote (callers : Callers calls places w) {n : Nat} (finished : w.threads (.request n) = .ret ()) :
    swapsBy n w.log = sets (calls n) := by
  have wrote := callers.wrote n
  rw [callers.here n] at finished
  cases at_place : places n with
  | between left =>
    rw [at_place] at finished wrote
    cases left with
    | nil => simpa [Place.sets, sets] using wrote
    | cons first rest => cases first <;> cases finished
  | _ =>
    rw [at_place] at finished
    cases finished

/-- Every read answers with what was written last before it. -/
theorem read_latest {s : Store} (empty : s.flags = Table.empty)
    (reaches : Pool.Reaches (perform crates) (fun _ _ => True) (world calls s) w)
    {before after : List (Tid × Event Act.Res)} {addr : String} {answer : Bool}
    (split : w.log = before ++ (t, ⟨.isHealthy addr, answer⟩) :: after) :
    answer = (lastSwap addr before).getD true := by
  obtain ⟨w₁, earlier, log, told⟩ := reaches_isHealthy rfl reaches split
  obtain ⟨places, callers⟩ := callers_reach empty earlier
  rw [told, callers.held.latest, log]

/-- Whatever the order of the steps, an address has one flag, which is never replaced; the registry
    says, at the end and to every read, what was written last, and that what was never written is
    healthy; every caller that has ended has written its values; and the transitions of an address
    alternate, unhealthy first. So do the lines for them, when a swap and its line are one step. -/
theorem updates_kept (crates : Crates) (calls : Nat → List Call) (s : Store) (w : System.World)
    (empty : s.flags = Table.empty) (reaches : Pool.Reaches (perform crates) (fun _ _ => True) (world calls s) w) :
    (∀ addr flag flag', (∃ entry ∈ w.log, Finds entry.2 addr flag) → (∃ entry ∈ w.log, Finds entry.2 addr flag') →
      flag = flag') ∧
    (∀ w', Pool.Reaches (perform crates) (fun _ _ => True) w w' → ∀ addr flag,
      w.state.flags.get addr = some flag → w'.state.flags.get addr = some flag) ∧
    (∀ addr, w.state.isHealthy addr = (lastSwap addr w.log).getD true) ∧
    (∀ before t addr answer after, w.log = before ++ (t, ⟨.isHealthy addr, answer⟩) :: after →
      answer = (lastSwap addr before).getD true) ∧
    (∀ addr, (∀ n healthy, .set addr healthy ∉ calls n) → w.state.isHealthy addr = true) ∧
    (∀ n, w.threads (.request n) = .ret () → swapsBy n w.log = sets (calls n)) ∧
    (∀ addr, (true :: transitions addr w.log).IsChain (· ≠ ·)) ∧
    (Pool.Reaches (perform crates) Whole (world calls s) w → ∀ addr, (true :: lines addr w.log).IsChain (· ≠ ·)) := by
  obtain ⟨places, callers⟩ := callers_reach empty reaches
  refine ⟨?_, ?_, callers.held.latest, fun before t addr answer after split => read_latest empty reaches split,
    fun addr unset => unset_healthy callers unset, fun n finished => finished_wrote callers finished,
    fun addr => (callers.turns addr).1, ?_⟩
  · rintro addr flag flag' ⟨entry, member, finds⟩ ⟨entry', member', finds'⟩
    have here := callers.held.found entry member addr flag finds
    have here' := callers.held.found entry' member' addr flag' finds'
    exact Option.some.inj (here.symm.trans here')
  · intro w' later addr flag here
    exact flags_persist later here
  · intro whole addr
    obtain ⟨places, callers, n, -, same⟩ := lined_reach empty whole
    have chain := (callers.turns addr).1
    rw [same addr, ← List.cons_append] at chain
    exact chain.left_of_append

/-! ## Two callers that both find no flag -/

/-- One task records that the address is unhealthy while another one records that it is healthy. -/
def racing : Nat → List Call
  | 0 => [.set "http://10.0.0.1:80" false]
  | 1 => [.set "http://10.0.0.1:80" true, .isHealthy "http://10.0.0.1:80"]
  | _ => []

/-- Neither of the two tasks but the given one is about to log. -/
def othersSettled (w : System.World) (t : Tid) : Bool :=
  [0, 1].all fun n => Tid.request n = t ||
    match w.threads (.request n) with
    | .act (.logTransition _ _) _ => false
    | _ => true

/-- Both look up, both insert, then they swap and log one after the other. -/
def race : List (Tid × Outside) :=
  [0, 1, 0, 1, 0, 0, 1, 1, 1].map fun n => (.request n, Samples.outside)

theorem settled_whole {s : Store}
    (reaches : Pool.Reaches (perform crates) (fun w t => othersSettled w t = true) (world racing s) w) :
    Pool.Reaches (perform crates) Whole (world racing s) w := by
  induction reaches with
  | refl => exact .refl
  | @step w₁ w₂ t o before here taken ih =>
    refine .step t o ih ?_ taken
    intro t' addr healthy next other head
    obtain ⟨trace, -, runs⟩ := Pool.reaches_runs before
    have ended : (world racing s).threads t' ≠ .ret () := by
      intro ended
      have run := runs t'
      rw [ended, head] at run
      cases (Prog.runs_ret.mp run).2
    have settled : ∀ n ∈ [0, 1], t' ≠ .request n := by
      rintro n member rfl
      have passed := List.all_eq_true.mp here n member
      simp [other, head] at passed
    cases t' with
    | request n =>
      by_cases racer : n ∈ [0, 1]
      · exact settled n racer rfl
      · have idle : racing n = [] := by
          unfold racing
          split <;> simp_all
        refine ended ?_
        show runCalls (racing n) = .ret ()
        rw [idle]
        rfl
    | _ => exact ended rfl

def ended (w : System.World) (n : Nat) : Bool :=
  match w.threads (.request n) with
  | .ret _ => true
  | .act _ _ => false

theorem ended_ret {n : Nat} (done : ended w n = true) : w.threads (.request n) = .ret () := by
  unfold ended at done
  split at done
  · assumption
  · cases done

/-- They get one flag, the last swap counts, and two lines were logged. -/
theorem updates_kept_racing :
    ∃ w, Pool.Reaches (perform (Samples.crates "" (Samples.config []))) (fun _ _ => True)
        (world racing Store.initial) w ∧
      (∀ n ∈ [0, 1], w.threads (.request n) = .ret () ∧ swapsBy n w.log = sets (racing n)) ∧
      w.state.isHealthy "http://10.0.0.1:80" = true ∧
      lines "http://10.0.0.1:80" w.log = [false, true] ∧
      (true :: lines "http://10.0.0.1:80" w.log).IsChain (· ≠ ·) := by
  have ran : (Pool.run (perform (Samples.crates "" (Samples.config []))) othersSettled race
      (world racing Store.initial)).any (fun w => ended w 0 && ended w 1 &&
        lastSwap "http://10.0.0.1:80" w.log = some true &&
        lines "http://10.0.0.1:80" w.log = [false, true]) = true := by
    decide +kernel
  obtain ⟨w, taken, done⟩ := (Option.any_eq_true _ _).mp ran
  simp only [Bool.and_eq_true, decide_eq_true_eq] at done
  obtain ⟨⟨⟨first, second⟩, last⟩, logged⟩ := done
  have settled : Pool.Reaches (perform (Samples.crates "" (Samples.config [])))
      (fun w t => othersSettled w t = true) (world racing Store.initial) w :=
    Pool.run_reaches (fun _ _ passed => passed) taken
  have reaches := Pool.reaches_mono (fun _ _ _ => trivial) settled
  obtain ⟨-, -, latest, -, -, wrote, -, alternate⟩ :=
    updates_kept (Samples.crates "" (Samples.config [])) racing Store.initial w rfl reaches
  refine ⟨w, reaches, ?_, ?_, logged, alternate (settled_whole settled) _⟩
  · intro n member
    have done : ended w n = true := by
      rcases List.mem_cons.mp member with rfl | member
      · exact first
      · rw [List.mem_singleton.mp member]
        exact second
    exact ⟨ended_ret done, wrote n (ended_ret done)⟩
  · rw [latest, last]
    rfl

end Updates
end Torana
