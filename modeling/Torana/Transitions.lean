import Torana.Instrumented
import Torana.Verdicts

/-!
The lines that the registry logs when an address becomes healthy or unhealthy. A prober
swaps the flag and logs afterwards, so lines of different probers can come in another order
than their swaps; but for each address the lines of both kinds add up to what the registry
says, once no prober stands between its swap and its line.
-/
namespace Torana
open Prog (Keeps keeps_bind keeps_call_bind keeps_mono)

namespace Transitions
open Verdicts Instrumented

/-! ## Changes and lines -/

/-- The event changed the flag of the address to this. -/
def changes (addr : String) (healthy : Bool) : Event Act.Res → Bool
  | ⟨.swapFlag addr' _ healthy', before⟩ => addr' = addr && healthy' = healthy && before ≠ healthy'
  | _ => false

/-- The action logs that the address became this. -/
def logs (addr : String) (healthy : Bool) : Act → Bool
  | .logTransition addr' healthy' => addr' = addr && healthy' = healthy
  | _ => false

def lines (addr : String) (healthy : Bool) (log : List (Tid × Event Act.Res)) : Nat :=
  log.countP fun e => logs addr healthy e.2.act

def changed (addr : String) (healthy : Bool) (log : List (Tid × Event Act.Res)) : Nat :=
  log.countP fun e => changes addr healthy e.2

/-- The actions of a prober that neither change a flag nor log a line. -/
def unrelated : Act → Bool
  | .swapFlag _ _ _ | .logTransition _ _ => false
  | _ => true

section
variable {addr : String} {healthy : Bool}

theorem unrelated_changes {a : Act} (other : unrelated a = true) (r : a.Res) : changes addr healthy ⟨a, r⟩ = false := by
  cases a <;> first | rfl | cases other

theorem unrelated_logs {a : Act} (other : unrelated a = true) : logs addr healthy a = false := by
  cases a <;> first | rfl | cases other

/-! ## The lines of one prober -/

/-- The history has a line for each of its changes. -/
def Balanced (addr : String) (healthy : Bool) (past : History) : Prop :=
  past.countP (changes addr healthy) = past.countP fun e => logs addr healthy e.act

/-- A prober logs a line where its history has one change more than lines. -/
def May (addr : String) (healthy : Bool) (past : History) (a : Act) : Prop :=
  past.countP (changes addr healthy) =
    (past.countP fun e => logs addr healthy e.act) + (logs addr healthy a).toNat

theorem balanced_may {past : History} {a : Act} (quiet : logs addr healthy a = false)
    (balanced : Balanced addr healthy past) : May addr healthy past a := by
  rw [May, quiet]
  exact balanced

/-- Behind an action that changes nothing the lines are as many as the changes again. -/
theorem may_balanced {past : History} {a : Act} {r : a.Res} (may : May addr healthy past a)
    (stays : changes addr healthy ⟨a, r⟩ = false) : Balanced addr healthy (past ++ [⟨a, r⟩]) := by
  unfold May at may
  rw [Balanced, List.countP_append, may, List.countP_append]
  cases line : logs addr healthy a <;> simp [stays, line]

theorem balanced_unrelated {past : History} {a : Act} (other : unrelated a = true) (r : a.Res)
    (balanced : Balanced addr healthy past) : Balanced addr healthy (past ++ [⟨a, r⟩]) :=
  may_balanced (balanced_may (unrelated_logs other) balanced) (unrelated_changes other r)

/-- Behind a swap the line of its change is left, if it made one. -/
theorem set_balanced {past : History} (spec : String) (verdict : Bool) (balanced : Balanced addr healthy past) :
    Keeps (May addr healthy) (fun past _ => Balanced addr healthy past) past (Health.set spec verdict) := by
  have swap : ∀ {past : History} (flag : Nat), Balanced addr healthy past →
      Keeps (May addr healthy) (fun past _ => Balanced addr healthy past) past (do
        let wasHealthy ← call (.swapFlag spec flag verdict)
        if wasHealthy ≠ verdict then call (.logTransition spec verdict)) := by
    intro past flag balanced
    refine keeps_call_bind.mpr ⟨balanced_may rfl balanced, fun before => ?_⟩
    unfold Balanced at balanced
    by_cases change : before ≠ verdict
    · rw [if_pos change]
      have owed : May addr healthy (past ++ [⟨.swapFlag spec flag verdict, before⟩]) (.logTransition spec verdict) := by
        simp [May, List.countP_append, List.countP_singleton, changes, logs, change, balanced]
        by_cases named : spec = addr <;> by_cases said : verdict = healthy <;> simp [named, said]
      exact ⟨owed, fun _ => may_balanced owed rfl⟩
    · rw [if_neg change]
      show Balanced addr healthy _
      simp only [ne_eq, not_not] at change
      simp [Balanced, List.countP_append, changes, logs, change, balanced]
  refine keeps_bind.mpr (keeps_call_bind.mpr ⟨balanced_may rfl balanced, fun found => ?_⟩)
  have balanced := balanced_unrelated (a := .getFlag spec) rfl found balanced
  cases found with
  | some flag => exact swap flag balanced
  | none =>
    refine ⟨balanced_may rfl balanced, fun flag => swap flag ?_⟩
    exact balanced_unrelated (a := .getOrInsertFlag spec) rfl flag balanced

theorem prober_balanced (rounds : Nat) :
    Keeps (May addr healthy) (fun past _ => Balanced addr healthy past) [] (Health.prober rounds) := by
  have start : Balanced addr healthy [] := rfl
  refine keeps_call_bind.mpr ⟨balanced_may rfl start, fun spec => ?_⟩
  have balanced := balanced_unrelated (a := .startProber) rfl spec start
  generalize ([] ++ [⟨.startProber, spec⟩] : History) = past at balanced ⊢
  induction rounds generalizing past with
  | zero => exact balanced
  | succ rounds ih =>
    have probes : Keeps (May addr healthy) (fun past _ => Balanced addr healthy past) past
        (Health.probeOnce spec.addr spec.path spec.timeout) := by
      unfold Health.probeOnce
      split
      · exact balanced
      · refine keeps_call_bind.mpr ⟨balanced_may rfl balanced, fun reply => ?_⟩
        cases reply <;> exact balanced_unrelated rfl _ balanced
    refine keeps_bind.mpr (keeps_mono (fun _ _ may => may) ?_ probes)
    intro past verdict balanced
    refine keeps_bind.mpr (keeps_mono (fun _ _ may => may) ?_ (set_balanced spec.addr verdict balanced))
    intro past _ balanced
    exact keeps_call_bind.mpr ⟨balanced_may rfl balanced,
      fun r => ih _ (balanced_unrelated (a := .sleep spec.interval) rfl r balanced)⟩

end

/-! ## All lines -/

section
variable {sys : System} {meets : System.World → Tid → Prop} {s : Store} {w : System.World}

/-- No prober stands between its swap of the flag of the address and its line. -/
def Settled (w : System.World) (addr : String) : Prop :=
  ∀ t healthy next, w.threads t ≠ .act (.logTransition addr healthy) next

/-- Where a task stands in front of a line, its history has one change more than lines. -/
theorem own_owes (reaches : sys.Reaches meets s w) (addr : String) (healthy : Bool) (t : Tid) :
    (Pool.own t w.log).countP (changes addr healthy) =
      ((Pool.own t w.log).countP fun e => logs addr healthy e.act) +
        (match w.threads t with
          | .act a _ => (logs addr healthy a).toNat
          | .ret _ => 0) := by
  have keeps : Keeps (May addr healthy) (fun past _ => Balanced addr healthy past) [] (sys.program t) := by
    by_cases prober : t.role = .prober
    · cases t with
      | prober n => exact prober_balanced _
      | _ => cases prober
    · have only : Prog.Only (fun a => unrelated a = true) (sys.program t) := by
        refine Prog.only_mono ?_ (Installing.program_only sys t)
        intro a role
        cases a <;> first | rfl | exact absurd role.symm prober
      have alone : Keeps (fun _ a => unrelated a = true) (fun _ _ => True) [] (sys.program t) :=
        Prog.keeps_of_only only
      have stable : Keeps (May addr healthy) (fun past _ => Balanced addr healthy past ∧ True) [] (sys.program t) :=
        Prog.keeps_stable (Balanced addr healthy)
          (fun past a r balanced other => balanced_unrelated other r balanced)
          (fun past a balanced other => balanced_may (unrelated_logs other) balanced) alone rfl
      exact keeps_mono (fun _ _ may => may) (fun _ _ kept => kept.1) stable
  have own := System.own_keeps keeps reaches
  cases ends : w.threads t with
  | act a next =>
    rw [ends] at own
    exact own.1
  | ret value =>
    rw [ends] at own
    exact own

theorem lines_le_changed (reaches : sys.Reaches meets s w) (addr : String) (healthy : Bool) :
    lines addr healthy w.log ≤ changed addr healthy w.log := by
  have each : ∀ t, (Pool.own t w.log).countP (fun e => logs addr healthy e.act) ≤
      (Pool.own t w.log).countP (changes addr healthy) := by
    intro t
    rw [own_owes reaches addr healthy t]
    exact Nat.le_add_right _ _
  exact countP_own_le each

theorem lines_eq_changed (reaches : sys.Reaches meets s w) {addr : String} (settled : Settled w addr) (healthy : Bool) :
    lines addr healthy w.log = changed addr healthy w.log := by
  have each : ∀ t, (Pool.own t w.log).countP (fun e => logs addr healthy e.act) =
      (Pool.own t w.log).countP (changes addr healthy) := by
    intro t
    rw [own_owes reaches addr healthy t]
    split
    · rename_i a next head
      have silent : logs addr healthy a = false := by
        by_contra line
        cases a <;> first | exact line rfl | skip
        rename_i addr' healthy'
        simp only [logs, Bool.and_eq_true, decide_eq_true_eq, Bool.not_eq_false] at line
        obtain ⟨rfl, rfl⟩ := line
        exact settled t _ next head
      rw [silent]
      rfl
    · rfl
  exact countP_own each

theorem changed_other {log : List (Tid × Event Act.Res)} {t : Tid} {e : Event Act.Res} (other : isSwap e.act = false)
    (addr : String) (healthy : Bool) : changed addr healthy (log ++ [(t, e)]) = changed addr healthy log := by
  have stays : changes addr healthy e = false := by
    obtain ⟨a, r⟩ := e
    cases a <;> first | rfl | cases other
  simp [changed, List.countP_append, stays]

theorem changed_swap {log : List (Tid × Event Act.Res)} {t : Tid} {addr' : String} {flag : Nat} {healthy' before : Bool}
    (addr : String) (healthy : Bool) :
    changed addr healthy (log ++ [(t, (⟨.swapFlag addr' flag healthy', before⟩ : Event Act.Res))]) =
      changed addr healthy log + if addr' = addr ∧ healthy' = healthy ∧ before ≠ healthy' then 1 else 0 := by
  rw [changed, List.countP_append, List.countP_singleton]
  simp only [changes, Bool.and_eq_true, decide_eq_true_eq, and_assoc]
  rfl

/-- The changes to unhealthy are as many as those back, and one more where the address is unhealthy. -/
theorem changed_tells (empty : s.flags = Table.empty) (reaches : sys.Reaches meets s w) (addr : String) :
    changed addr false w.log = changed addr true w.log + if w.state.isHealthy addr = true then 0 else 1 := by
  refine Pool.reaches_invariant (fun w => changed addr false w.log =
    changed addr true w.log + if w.state.isHealthy addr = true then 0 else 1) ?_ ?_ reaches
  · have unset : s.flags.get addr = none := by
      rw [empty]
      rfl
    simp [changed, System.world, Store.isHealthy, unset]
  · rintro o t w₁ w₂ before balanced here taken
    have registry₁ := reaches_registry empty before
    have registry₂ := reaches_registry empty (.step t o before here taken)
    obtain ⟨a, next, r, s', head, done, rfl⟩ := Pool.step_cases taken
    have recorded := registry₂.recorded addr
    by_cases other : isSwap a = false
    · rw [lastVerdict, verdicts_other other, ← lastVerdict, ← registry₁.recorded addr] at recorded
      rw [changed_other other, changed_other other, recorded]
      exact balanced
    · cases a with
      | swapFlag addr' flag healthy' =>
        obtain ⟨⟨e, member, finds⟩, sound⟩ := swap_contract before head
        have holds := registry₁.found _ (Pool.mem_own.mp member) addr' flag finds
        have read : r = w₁.state.isHealthy addr' := by
          rw [perform_swapFlag_before done, Store.isHealthy, holds]
        rw [lastVerdict, verdicts_swap, ← sound, List.lookup_cons] at recorded
        rw [changed_swap, changed_swap, recorded]
        by_cases same : addr' = addr
        · subst same
          rw [read]
          cases was : w₁.state.isHealthy addr' <;> rw [was] at balanced <;> cases healthy' <;> simp [balanced]
        · have apart : (addr == addr') = false := by simpa using Ne.symm same
          simp only [same, false_and, if_false, apart, Nat.add_zero]
          rw [← lastVerdict, ← registry₁.recorded addr]
          exact balanced
      | _ => exact absurd rfl other

/-- In every run from an empty registry, with any number of probers, also of one address: an
    address was reported at most as often as it changed, it became unhealthy as often as
    healthy, and once more exactly where it is unhealthy now, and once no prober stands
    between its swap and its line the lines say the same. -/
theorem transitions_tell (sys : System) (s : Store) (w : System.World) (empty : s.flags = Table.empty)
    (reaches : sys.Reaches (fun _ _ => True) s w) (addr : String) :
    (∀ healthy, lines addr healthy w.log ≤ changed addr healthy w.log) ∧
      (changed addr false w.log = changed addr true w.log + if w.state.isHealthy addr = true then 0 else 1) ∧
      (Settled w addr →
        lines addr false w.log = lines addr true w.log + if w.state.isHealthy addr = true then 0 else 1) := by
  have tells := changed_tells empty reaches addr
  refine ⟨lines_le_changed reaches addr, tells, fun settled => ?_⟩
  rw [lines_eq_changed reaches settled, lines_eq_changed reaches settled]
  exact tells

/-- A task that has done nothing stands at its beginning. -/
theorem untouched_start (reaches : sys.Reaches meets s w) {t : Tid} (idle : Pool.own t w.log = []) :
    w.threads t = sys.program t := by
  obtain ⟨trace, logged, runs⟩ := Pool.reaches_runs reaches
  have logged : w.log = trace := logged
  have run := runs t
  rw [← logged, idle] at run
  generalize start : sys.program t = p
  have run : Prog.Runs p [] (w.threads t) := start ▸ run
  generalize w.threads t = q at run ⊢
  cases run
  rfl

end

/-- The task stands in front of a line. -/
def standsAtLine (w : System.World) (t : Tid) : Bool :=
  match w.threads t with
  | .act (.logTransition _ _) _ => true
  | _ => false

theorem settled_of_log {sys : System} {meets : System.World → Tid → Prop} {s : Store} {w : System.World}
    (reaches : sys.Reaches meets s w) (idle : w.log.all (fun e => !standsAtLine w e.1) = true) (addr : String) :
    Settled w addr := by
  intro t healthy next head
  by_cases silent : Pool.own t w.log = []
  · have start := untouched_start reaches silent
    have only := Pool.reaches_only (Installing.program_only sys t) reaches
    rw [head] at start only
    cases t with
    | prober n => cases start
    | _ => cases only.1
  · obtain ⟨e, member⟩ := List.exists_mem_of_ne_nil _ silent
    have quiet := List.all_eq_true.mp idle _ (Pool.mem_own.mp member)
    simp [standsAtLine, head] at quiet

/-- The prober of an address that fails its probe reports it. -/
theorem transitions_tell_failing :
    ∃ w, unchecking.Reaches (fun _ _ => True) checkedStore w ∧ Settled w "http://10.0.0.1:80" ∧
      lines "http://10.0.0.1:80" false w.log = 1 ∧
      (∀ healthy, lines "http://10.0.0.1:80" healthy w.log ≤ changed "http://10.0.0.1:80" healthy w.log) ∧
      (changed "http://10.0.0.1:80" false w.log = changed "http://10.0.0.1:80" true w.log +
        if w.state.isHealthy "http://10.0.0.1:80" = true then 0 else 1) ∧
      (Settled w "http://10.0.0.1:80" → lines "http://10.0.0.1:80" false w.log =
        lines "http://10.0.0.1:80" true w.log + if w.state.isHealthy "http://10.0.0.1:80" = true then 0 else 1) := by
  obtain ⟨w, reaches, ended⟩ := System.reaches_of_run unchecking (fun _ _ => true) (removing none) checkedStore
    (fun w => w.log.all (fun e => !standsAtLine w e.1) && lines "http://10.0.0.1:80" false w.log = 1)
    (by decide +kernel)
  obtain ⟨idle, one⟩ := Bool.and_eq_true_iff.mp ended
  have reaches := Pool.reaches_mono (fun _ _ _ => trivial) reaches
  exact ⟨w, reaches, settled_of_log reaches idle _, of_decide_eq_true one,
    transitions_tell unchecking checkedStore w rfl reaches "http://10.0.0.1:80"⟩

end Transitions
end Torana
