import Torana.ReloadRuns

/-!
The health registry over whole runs. A prober records the verdict of a probe in the
flag of its address, and nothing else ever writes a flag: the registry says of every
address what the last prober that recorded a verdict for it found, also when no
config asks for a check of the address any more.
-/
namespace Torana
open Health (probeStatus)
open Prog (Keeps keeps_bind keeps_call_bind keeps_mono)

namespace Verdicts
open Rounds ReloadRuns Installing

/-! ## Probers -/

/-- The verdict of a probe on what it read, if it read anything. -/
def verdictOf : Option (List UInt8) → Bool
  | none => false
  | some bytes =>
    let status := probeStatus (Text.decodeLossy (bytes.take 512))
    status ≠ 0 && status < 500

def replyOf : Event Act.Res → Option (Option (List UInt8))
  | ⟨.exchange _ _ _ _, reply⟩ => some reply
  | _ => none

/-- What the last probe of a prober read. -/
def lastReply (past : History) : Option (List UInt8) := (past.reverse.findSome? replyOf).join

/-- The verdict that a prober of the address comes to. -/
def concluded (addr : String) (past : History) : Bool :=
  match Proxy.upstreamHostPort addr with
  | .error _ => false
  | .ok _ => verdictOf (lastReply past)

theorem concluded_other {addr : String} {past : History} {e : Event Act.Res} (other : replyOf e = none) :
    concluded addr (past ++ [e]) = concluded addr past := by
  simp [concluded, lastReply, other]

theorem concluded_exchange {addr host' request : String} {past : History} {timeout : Config.Duration} {port' : Nat}
    {host : String × Nat} (valid : Proxy.upstreamHostPort addr = .ok host) (reply : Option (List UInt8)) :
    concluded addr (past ++ [⟨.exchange timeout host' port' request, reply⟩]) = verdictOf reply := by
  rw [concluded, valid, lastReply, List.reverse_append]
  rfl

/-- The event finds the flag of the address. -/
def Finds (e : Event Act.Res) (addr : String) (flag : Nat) : Prop :=
  e = ⟨.getFlag addr, some flag⟩ ∨ e = ⟨.getOrInsertFlag addr, flag⟩

/-- A prober writes the verdict of its last probe, into a flag that it found for the address. -/
def May (past : History) (a : Act) : Prop :=
  ∀ addr flag healthy, a = .swapFlag addr flag healthy →
    (∃ e ∈ past, Finds e addr flag) ∧ healthy = concluded addr past

def isSwap : Act → Bool
  | .swapFlag _ _ _ => true
  | _ => false

theorem may_other {past : History} {a : Act} (other : isSwap a = false) : May past a := by
  rintro addr flag healthy rfl
  cases other

theorem probeOnce_keeps (addr path : String) (timeout : Config.Duration) (past : History) :
    Keeps May (fun past healthy => healthy = concluded addr past) past (Health.probeOnce addr path timeout) := by
  unfold Health.probeOnce
  split
  · rename_i e invalid
    simp [concluded, invalid]
  · rename_i host port valid
    refine keeps_call_bind.mpr ⟨may_other rfl, fun reply => ?_⟩
    cases reply with
    | none => exact (concluded_exchange valid none).symm
    | some bytes => exact (concluded_exchange valid (some bytes)).symm

theorem set_keeps {addr : String} {healthy : Bool} {past : History} (sound : healthy = concluded addr past) :
    Keeps May (fun _ _ => True) past (Health.set addr healthy) := by
  have swap : ∀ {past : History} {flag : Nat}, (∃ e ∈ past, Finds e addr flag) → healthy = concluded addr past →
      Keeps May (fun _ _ => True) past (do
        let wasHealthy ← call (.swapFlag addr flag healthy)
        if wasHealthy ≠ healthy then call (.logTransition addr healthy)) := by
    intro past flag found sound
    refine keeps_call_bind.mpr ⟨?_, fun before => ?_⟩
    · rintro _ _ _ ⟨⟩
      exact ⟨found, sound⟩
    · split
      · exact ⟨may_other rfl, fun _ => trivial⟩
      · trivial
  refine keeps_bind.mpr (keeps_call_bind.mpr ⟨may_other rfl, fun found => ?_⟩)
  cases found with
  | some flag =>
    exact swap ⟨⟨.getFlag addr, some flag⟩, by simp, .inl rfl⟩ (by rw [concluded_other rfl]; exact sound)
  | none =>
    refine ⟨may_other rfl, fun flag => ?_⟩
    exact swap ⟨⟨.getOrInsertFlag addr, flag⟩, by simp, .inr rfl⟩
      (by rw [concluded_other rfl, concluded_other rfl]; exact sound)

theorem prober_keeps (rounds : Nat) : Keeps May (fun _ _ => True) [] (Health.prober rounds) := by
  refine keeps_call_bind.mpr ⟨may_other rfl, fun spec => ?_⟩
  generalize ([] ++ [⟨.startProber, spec⟩] : History) = past
  induction rounds generalizing past with
  | zero => trivial
  | succ rounds ih =>
    refine keeps_bind.mpr (keeps_mono (fun _ _ may => may) ?_ (probeOnce_keeps spec.addr spec.path spec.timeout past))
    intro past healthy sound
    refine keeps_bind.mpr (keeps_mono (fun _ _ may => may) ?_ (set_keeps sound))
    intro past _ _
    exact keeps_call_bind.mpr ⟨may_other rfl, fun _ => ih _⟩

/-! ## What was recorded -/

/-- The verdicts that were recorded, with their addresses; the events of the log and the
    verdicts come newest first. -/
def verdictsFrom : List (Tid × Event Act.Res) → List (String × Bool)
  | [] => []
  | (t, e) :: earlier =>
    match e.act with
    | .swapFlag addr _ _ => (addr, concluded addr (Pool.own t earlier.reverse)) :: verdictsFrom earlier
    | _ => verdictsFrom earlier

def verdicts (log : List (Tid × Event Act.Res)) : List (String × Bool) := verdictsFrom log.reverse

/-- The verdict that was recorded last for the address. -/
def lastVerdict (addr : String) (log : List (Tid × Event Act.Res)) : Option Bool := (verdicts log).lookup addr

/-- The registry and what was recorded in it. -/
structure Registry (w : System.World) : Prop where
  below : ∀ addr flag, w.state.flags.get addr = some flag → flag < w.state.nextFlag
  apart : ∀ addr addr' flag, w.state.flags.get addr = some flag → w.state.flags.get addr' = some flag → addr = addr'
  found : ∀ entry ∈ w.log, ∀ addr flag, Finds entry.2 addr flag → w.state.flags.get addr = some flag
  recorded : ∀ addr, w.state.isHealthy addr = (lastVerdict addr w.log).getD true

/-- The actions on flags. -/
def onFlags : Act → Bool
  | .getFlag _ | .getOrInsertFlag _ | .swapFlag _ _ _ => true
  | _ => false

/-! ## What was written -/

def swapOf : Event Act.Res → Option (String × Bool)
  | ⟨.swapFlag addr _ healthy, _⟩ => some (addr, healthy)
  | _ => none

/-- The values that were written into flags, with their addresses, in order. -/
def swaps (log : List (Tid × Event Act.Res)) : List (String × Bool) := log.filterMap fun entry => swapOf entry.2

/-- The value that was written last for the address. -/
def lastSwap (addr : String) (log : List (Tid × Event Act.Res)) : Option Bool := (swaps log).reverse.lookup addr

theorem swapOf_other {e : Event Act.Res} (other : isSwap e.act = false) : swapOf e = none := by
  obtain ⟨a, r⟩ := e
  cases a <;> first | rfl | cases other

theorem swaps_other {log : List (Tid × Event Act.Res)} {t : Tid} {e : Event Act.Res} (other : isSwap e.act = false) :
    swaps (log ++ [(t, e)]) = swaps log := by
  simp [swaps, swapOf_other other]

theorem swaps_swap {addr : String} {log : List (Tid × Event Act.Res)} {t : Tid} {flag : Nat} {healthy before : Bool} :
    swaps (log ++ [(t, (⟨.swapFlag addr flag healthy, before⟩ : Event Act.Res))]) = swaps log ++ [(addr, healthy)] :=
  List.filterMap_append

theorem lastSwap_swap {addr addr' : String} {log : List (Tid × Event Act.Res)} {t : Tid} {flag : Nat}
    {healthy before : Bool} :
    lastSwap addr' (log ++ [(t, (⟨.swapFlag addr flag healthy, before⟩ : Event Act.Res))]) =
      if addr' = addr then some healthy else lastSwap addr' log := by
  rw [lastSwap, swaps_swap, List.reverse_append, List.reverse_singleton, List.singleton_append, List.lookup_cons]
  by_cases same : addr' = addr
  · simp [same]
  · have different : (addr' == addr) = false := by simpa using same
    rw [different, if_neg same]
    rfl

/-- The flags of the registry, whoever writes them: an address has one flag that is its own, every
    task that found it found the same, and the registry says what was written last. -/
structure Held (w : System.World) : Prop where
  below : ∀ addr flag, w.state.flags.get addr = some flag → flag < w.state.nextFlag
  apart : ∀ addr addr' flag, w.state.flags.get addr = some flag → w.state.flags.get addr' = some flag → addr = addr'
  found : ∀ entry ∈ w.log, ∀ addr flag, Finds entry.2 addr flag → w.state.flags.get addr = some flag
  latest : ∀ addr, w.state.isHealthy addr = (lastSwap addr w.log).getD true

theorem verdicts_other {log : List (Tid × Event Act.Res)} {t : Tid} {e : Event Act.Res}
    (other : isSwap e.act = false) : verdicts (log ++ [(t, e)]) = verdicts log := by
  obtain ⟨a, r⟩ := e
  rw [verdicts, List.reverse_append]
  cases a <;> first | rfl | cases other

theorem verdicts_swap {addr : String} {log : List (Tid × Event Act.Res)} {t : Tid} {flag : Nat}
    {healthy before : Bool} :
    verdicts (log ++ [(t, (⟨.swapFlag addr flag healthy, before⟩ : Event Act.Res))]) =
      (addr, concluded addr (Pool.own t log)) :: verdicts log := by
  rw [verdicts, List.reverse_append]
  show (addr, concluded addr (Pool.own t log.reverse.reverse)) :: verdictsFrom log.reverse = _
  rw [List.reverse_reverse, verdicts]

section
variable {sys : System} {meets : System.World → Tid → Prop} {s : Store} {w w' : System.World} {crates : Crates}
  {o : Outside} {t : Tid} {threads : Tid → Program Unit}

/-- A step that is on no flag changes nothing that the registry is made of. -/
theorem quiet_flags {a : Act} {s s' : Store} {r : a.Res} (quiet : onFlags a = false)
    (done : perform crates o t a s = some (r, s')) :
    s'.flags = s.flags ∧ s'.nextFlag = s.nextFlag ∧ s'.flagValues = s.flagValues := by
  have changes := perform_changes done
  have noInsert : ¬ ∃ addr, a = .getOrInsertFlag addr := by
    rintro ⟨addr, rfl⟩
    cases quiet
  have noSwap : ¬ ∃ addr flag healthy, a = .swapFlag addr flag healthy := by
    rintro ⟨addr, flag, healthy, rfl⟩
    cases quiet
  obtain ⟨flags, next⟩ := changes.flags.resolve_right noInsert
  exact ⟨flags, next, changes.flagValues.resolve_right (not_or.mpr ⟨noInsert, noSwap⟩)⟩

/-- The flags that were found are still held once the registry has grown. -/
theorem found_append {e : Event Act.Res} {flags : Table String Nat} (held : Held w)
    (grown : ∀ addr flag, w.state.flags.get addr = some flag → flags.get addr = some flag)
    (sound : ∀ addr flag, Finds e addr flag → flags.get addr = some flag) :
    ∀ entry ∈ w.log ++ [(t, e)], ∀ addr flag, Finds entry.2 addr flag → flags.get addr = some flag := by
  intro entry member addr flag finds
  rcases List.mem_append.mp member with earlier | last
  · exact grown addr flag (held.found entry earlier addr flag finds)
  · obtain rfl := List.mem_singleton.mp last
    exact sound addr flag finds

/-- An event that changes no flag and finds what the registry holds keeps it. -/
theorem held_same {e : Event Act.Res} {s' : Store} (held : Held w) (reads : isSwap e.act = false)
    (same : s'.flags = w.state.flags ∧ s'.nextFlag = w.state.nextFlag ∧ s'.flagValues = w.state.flagValues)
    (sound : ∀ addr flag, Finds e addr flag → w.state.flags.get addr = some flag) :
    Held ⟨s', threads, w.log ++ [(t, e)]⟩ := by
  obtain ⟨flags, next, values⟩ := same
  refine ⟨?_, ?_, ?_, fun addr => ?_⟩
  · simp only [flags, next]
    exact held.below
  · simp only [flags]
    exact held.apart
  · simp only [flags]
    exact found_append held (fun _ _ here => here) sound
  · rw [lastSwap, swaps_other reads, ← lastSwap, ← held.latest addr, Store.isHealthy, Store.isHealthy, flags, values]

/-- A new flag belongs to its address alone and reads as healthy, as its absence did. -/
theorem held_inserted {addr : String} (held : Held w) (absent : w.state.flags.get addr = none) :
    Held ⟨{ w.state with
        flags := w.state.flags.insert addr w.state.nextFlag
        flagValues := Function.update w.state.flagValues w.state.nextFlag true
        nextFlag := w.state.nextFlag + 1 }, threads,
      w.log ++ [(t, ⟨.getOrInsertFlag addr, w.state.nextFlag⟩)]⟩ := by
  refine ⟨?_, ?_, ?_, ?_⟩
  · intro addr' flag got
    rcases Table.get_insert_some got with ⟨_, rfl⟩ | ⟨_, before⟩
    · exact Nat.lt_succ_self _
    · exact Nat.lt_succ_of_lt (held.below addr' flag before)
  · intro addr₁ addr₂ flag got₁ got₂
    rcases Table.get_insert_some got₁ with ⟨rfl, new⟩ | ⟨_, before₁⟩ <;>
      rcases Table.get_insert_some got₂ with ⟨rfl, new'⟩ | ⟨_, before₂⟩
    · rfl
    · exact absurd (held.below addr₂ flag before₂) (by omega)
    · exact absurd (held.below addr₁ flag before₁) (by omega)
    · exact held.apart addr₁ addr₂ flag before₁ before₂
  · refine found_append held (fun addr' flag before => ?_) ?_
    · have other : addr' ≠ addr := by
        rintro rfl
        rw [absent] at before
        cases before
      rw [Table.get_insert_ne _ _ other]
      exact before
    · rintro addr' flag (same | same) <;> cases same
      exact Table.get_insert_self _ _ _
  · intro addr'
    rw [lastSwap, swaps_other rfl, ← lastSwap, ← held.latest addr', Store.isHealthy, Store.isHealthy]
    simp only [Table.get_insert]
    by_cases same : addr' = addr
    · subst same
      simp [absent]
    · rw [if_neg same]
      cases before : w.state.flags.get addr' with
      | none => rfl
      | some flag =>
        have below := held.below addr' flag before
        simp only
        rw [Function.update_of_ne (by omega)]

/-- A value that is written changes what the registry says of its own address alone. -/
theorem held_swapped {addr : String} {flag : Nat} {healthy before : Bool} (held : Held w)
    (holds : w.state.flags.get addr = some flag) :
    Held ⟨{ w.state with flagValues := Function.update w.state.flagValues flag healthy }, threads,
      w.log ++ [(t, ⟨.swapFlag addr flag healthy, before⟩)]⟩ := by
  refine ⟨held.below, held.apart, ?_, fun addr' => ?_⟩
  · refine found_append held (fun _ _ here => here) ?_
    rintro addr' flag' (same | same) <;> cases same
  · rw [lastSwap_swap]
    by_cases same : addr' = addr
    · subst same
      simp [Store.isHealthy, holds]
    · rw [if_neg same, ← held.latest addr', Store.isHealthy, Store.isHealthy]
      simp only
      cases other : w.state.flags.get addr' with
      | none => rfl
      | some flag' =>
        have apart : flag' ≠ flag := by
          rintro rfl
          exact same (held.apart addr' addr flag' other holds)
        simp only
        rw [Function.update_of_ne apart]

/-- A step of any task keeps the flags, if the task writes into the flag of the address only. -/
theorem held_step (held : Held w) (taken : Pool.step (perform crates) o t w = some w')
    (owns : ∀ addr flag healthy next, w.threads t = .act (.swapFlag addr flag healthy) next →
      w.state.flags.get addr = some flag) : Held w' := by
  obtain ⟨a, next, r, s', head, done, rfl⟩ := Pool.step_cases taken
  by_cases quiet : onFlags a = false
  · refine held_same held ?_ (quiet_flags quiet done) ?_
    · cases a <;> first | rfl | cases quiet
    · rintro addr flag (same | same) <;> cases same <;> cases quiet
  · cases a with
    | getFlag addr =>
      obtain ⟨looked, rfl⟩ := perform_getFlag done
      refine held_same held rfl ⟨rfl, rfl, rfl⟩ ?_
      rintro addr' flag (same | same) <;> cases same
      exact looked.symm
    | getOrInsertFlag addr =>
      rcases perform_getOrInsertFlag done with ⟨present, rfl⟩ | ⟨absent, rfl, rfl⟩
      · refine held_same held rfl ⟨rfl, rfl, rfl⟩ ?_
        rintro addr' flag (same | same) <;> cases same
        exact present
      · exact held_inserted held absent
    | swapFlag addr flag healthy =>
      obtain rfl := perform_swapFlag done
      exact held_swapped held (owns addr flag healthy next head)
    | _ => exact absurd rfl quiet

/-- An empty registry says of every address that it is healthy. -/
theorem held_empty (empty : w.state.flags = Table.empty) (fresh : w.log = []) : Held w := by
  have unset : ∀ addr, w.state.flags.get addr = none := fun addr => by rw [empty]; rfl
  refine ⟨fun addr flag got => ?_, fun addr addr' flag got => ?_, fun entry member => ?_, fun addr => ?_⟩
  · cases (unset addr).symm.trans got
  · cases (unset addr).symm.trans got
  · rw [fresh] at member
    cases member
  · rw [Store.isHealthy, unset, fresh]
    rfl

/-! ## Probers are the only ones -/

/-- What a thread of the system writes is the verdict of its last probe, and it writes it into a
    flag that it found. -/
theorem swap_contract {addr : String} {flag : Nat} {healthy : Bool} {next : Bool → Program Unit}
    (before : sys.Reaches meets s w) (head : w.threads t = .act (.swapFlag addr flag healthy) next) :
    (∃ e ∈ Pool.own t w.log, Finds e addr flag) ∧ healthy = concluded addr (Pool.own t w.log) := by
  have only := Pool.reaches_only (program_only sys t) before
  rw [head] at only
  cases t with
  | prober n =>
    have keeps : Keeps May (fun _ _ => True) [] (sys.program (.prober n)) := prober_keeps (sys.rounds n)
    have own := System.own_keeps keeps before
    rw [head] at own
    exact own.1 addr flag healthy rfl
  | _ => cases only.1

/-- What was written are the verdicts. -/
theorem verdicts_step (before : sys.Reaches meets s w) (same : verdicts w.log = (swaps w.log).reverse)
    (taken : Pool.step (perform sys.crates) o t w = some w') : verdicts w'.log = (swaps w'.log).reverse := by
  obtain ⟨a, next, r, s', head, done, rfl⟩ := Pool.step_cases taken
  by_cases other : isSwap a = false
  · rw [verdicts_other other, swaps_other other]
    exact same
  · cases a with
    | swapFlag addr flag healthy =>
      rw [verdicts_swap, swaps_swap, List.reverse_append, ← same, ← (swap_contract before head).2]
      rfl
    | _ => exact absurd rfl other

/-- In every state reached from an empty registry it says what was recorded last. -/
theorem reaches_registry (empty : s.flags = Table.empty) (reaches : sys.Reaches meets s w) : Registry w := by
  have inv : Held w ∧ verdicts w.log = (swaps w.log).reverse := by
    refine Pool.reaches_invariant (fun w => Held w ∧ verdicts w.log = (swaps w.log).reverse)
      ⟨held_empty empty rfl, rfl⟩ ?_ reaches
    rintro o t w₁ w₂ before ⟨held, same⟩ _ taken
    refine ⟨held_step held taken ?_, verdicts_step before same taken⟩
    intro addr flag healthy next head
    obtain ⟨⟨e, member, finds⟩, -⟩ := swap_contract before head
    exact held.found _ (Pool.mem_own.mp member) addr flag finds
  obtain ⟨held, same⟩ := inv
  refine ⟨held.below, held.apart, held.found, fun addr => ?_⟩
  rw [lastVerdict, same]
  exact held.latest addr

theorem registry_healthy_iff (registry : Registry w) (addr : String) :
    w.state.isHealthy addr = true ↔ lastVerdict addr w.log ≠ some false := by
  rw [registry.recorded addr]
  cases lastVerdict addr w.log with
  | none => simp
  | some healthy => cases healthy <;> simp

/-- In every state that is reached from the start, the addresses that the installed
    config does not check read as healthy exactly when none of them failed the probe
    whose verdict was recorded last for it. -/
theorem unchecked_healthy_iff (sys : System) (o : Outside) (config : Config) (s : Store) (w : System.World)
    (started : Pool.alone (perform sys.crates) o .main (Reload.start sys.build sys.crates config) Store.initial =
      some ((), s)) (reaches : sys.Reaches (fun _ _ => True) s w) :
    (∀ addr, addr ∉ checkedUpstreams w.state.config → w.state.isHealthy addr = true) ↔
      ∀ addr, addr ∉ checkedUpstreams w.state.config → lastVerdict addr w.log ≠ some false := by
  obtain ⟨plugins, ends, _⟩ := alone_start sys.build sys.crates (o := o) config
  cases started.symm.trans ends
  have registry := reaches_registry rfl reaches
  exact forall₂_congr fun addr _ => registry_healthy_iff registry addr

end

/-! ## A check that a reload removes -/

def uncheckedDocument : String :=
  "[[listener]]\naddr = \"0.0.0.0:8080\"\nprotocol = \"http\"\n" ++
    "[[route]]\nname = \"api\"\n[[route.upstream]]\naddr = \"http://10.0.0.1:80\"\n"

def uncheckedConfig : Config := Samples.config [Samples.route "api" "http://10.0.0.1:80"]

/-- One prober, which probes once, and one reload, which removes its check. -/
def unchecking : System where
  build := Samples.build
  crates := Samples.crates uncheckedDocument uncheckedConfig
  configPath := "torana.toml"
  reloads := 1
  rounds _ := 1
  conn _ := Samples.conn
  req _ := Samples.get Multimap.empty

def checkedStore : Store := started Samples.build checkedConfig Table.empty

theorem start_checked :
    Pool.alone (perform unchecking.crates) Samples.outside .main
      (Reload.start Samples.build unchecking.crates checkedConfig) Store.initial = some ((), checkedStore) := rfl

/-- The prober records the verdict of its probe, then the reload aborts it and it stops. -/
def removing (reply : Option (List UInt8)) : List (Tid × Outside) :=
  List.replicate 6 (.prober 0, { Samples.outside with reply }) ++
    List.replicate 8 (.reload, { Samples.outside with text := .ok uncheckedDocument }) ++
    [(.runtime 0, Samples.outside)]

/-- The reload has come to its end and no prober is left. -/
def removed (w : System.World) : Bool :=
  (match w.threads .reload with
    | .ret _ => true
    | .act _ _ => false) &&
  w.state.tasks.all (fun task => task.status = .stopped) && w.state.config = uncheckedConfig

theorem lastVerdict_passed {addr : String} {log : List (Tid × Event Act.Res)}
    (passed : (verdicts log).all (·.2) = true) : lastVerdict addr log ≠ some false := by
  intro failed
  obtain ⟨before, after, split, _⟩ := List.lookup_eq_some_iff.mp failed
  have member : (addr, false) ∈ verdicts log := by
    rw [split]
    simp
  exact absurd (List.all_eq_true.mp passed _ member) (by simp)

/-- The probe succeeds before its check is removed. -/
theorem unchecked_healthy_iff_passed :
    ∃ w, unchecking.Reaches (fun _ _ => True) checkedStore w ∧ removed w = true ∧ verdicts w.log ≠ [] ∧
      ∀ addr, addr ∉ checkedUpstreams w.state.config → w.state.isHealthy addr = true := by
  obtain ⟨w, reaches, ended⟩ := System.reaches_of_run unchecking (fun _ _ => true)
    (removing (some (Text.asBytes "HTTP/1.1 200 OK".toList))) checkedStore
    (fun w => removed w && verdicts w.log ≠ [] && (verdicts w.log).all (·.2)) (by decide +kernel)
  simp only [Bool.and_eq_true, decide_eq_true_eq] at ended
  obtain ⟨⟨ended, recorded⟩, passed⟩ := ended
  have reaches := Pool.reaches_mono (fun _ _ _ => trivial) reaches
  refine ⟨w, reaches, ended, recorded, ?_⟩
  exact (unchecked_healthy_iff unchecking Samples.outside checkedConfig checkedStore w start_checked reaches).mpr
    fun addr _ => lastVerdict_passed passed

/-- The probe fails before its check is removed, and the address stays unhealthy. -/
theorem verdict_outlives_check :
    ∃ s w, Pool.alone (perform unchecking.crates) Samples.outside .main
        (Reload.start Samples.build unchecking.crates checkedConfig) Store.initial = some ((), s) ∧
      unchecking.Reaches (fun _ _ => True) s w ∧ removed w = true ∧
      ¬ ∀ addr, addr ∉ checkedUpstreams w.state.config → w.state.isHealthy addr = true := by
  obtain ⟨w, reaches, ended⟩ := System.reaches_of_run unchecking (fun _ _ => true) (removing none) checkedStore
    (fun w => removed w && checkedUpstreams w.state.config = [] && !w.state.isHealthy "http://10.0.0.1:80")
    (by decide +kernel)
  simp only [Bool.and_eq_true, decide_eq_true_eq, Bool.not_eq_true'] at ended
  obtain ⟨⟨ended, unchecked⟩, unhealthy⟩ := ended
  refine ⟨_, w, start_checked, Pool.reaches_mono (fun _ _ _ => trivial) reaches, ended, fun healthy => ?_⟩
  have reads := healthy "http://10.0.0.1:80" (by rw [unchecked]; exact List.not_mem_nil)
  rw [unhealthy] at reads
  cases reads

end Verdicts
end Torana
