import Torana.Pool
import Torana.Plugins
import Torana.Upstream

/-!
The actions through which the proxy's tasks touch what they share and what is
outside of them, and the shared state itself. Everything between two actions is
local to its task; the actions are the points at which tasks interleave.

`perform` says what one action of one task does. The answers of the network, the
clock and the file system come from `Outside`; all others are read from the
shared state.
-/
namespace Torana
open Http Proxy
open Config (Duration)
open Upstream (LoadBalancer)
open Plugins (Plugin Verdict Wasmtime)

/-- What the code takes from crates that are not part of it. -/
structure Crates where
  parseUri : UriParser
  parseToml : String → Except String Config
  wasm : Wasmtime

/-- The arguments of one prober task. -/
structure ProbeSpec where
  addr : String
  path : String
  interval : Duration
  timeout : Duration
  deriving DecidableEq

/-- How the call of the pooled client ended: an answer, an error that `is_connect`
    does or does not hold of, or the end of its time. -/
inductive Outcome where
  | responded (resp : Response (List UInt8))
  | failed (isConnect : Bool)
  | elapsed

inductive Act where
  -- `ProxyEngine::handle`
  | readConfig
  | dropConfig
  | getPlugin (path : String)
  | evaluate (plugin : Plugin) (method path : String)
  | subsecNanos
  | spawnMirror (timeout : Duration) (addr : String) (req : Request UpstreamBody)
  | mirrorFailed (addr error : String)
  | getBalancer (routeName : String)
  | fetchAdd (counter bits : Nat)
  | isHealthy (addr : String)
  | sendRequest (timeout : Duration) (addr : String) (req : Request UpstreamBody)
  | failUnsent (addr error : String)
  | expectFailed (message : String)
  | respond (resp : Response ProxyBody)
  -- `HealthRegistry::set` and the prober tasks
  | startProber
  | exchange (timeout : Duration) (host : String) (port : Nat) (request : String)
  | getFlag (addr : String)
  | getOrInsertFlag (addr : String)
  | swapFlag (addr : String) (flag : Nat) (healthy : Bool)
  | logTransition (addr : String) (healthy : Bool)
  | sleep (interval : Duration)
  -- `watch_config_signal` and start-up
  | recvSighup
  | readToString (path : String)
  | readFile (path : String)
  | newCounters (count : Nat)
  | spawnProber (spec : ProbeSpec)
  | writeLbCache (cache : Table String LoadBalancer)
  | writePluginCache (cache : Table String Plugin)
  | writeConfig (config : Config)
  | replaceHandles (handles : List Nat)
  | abort (handle : Nat)
  -- the runtime drops an aborted task
  | stopTask (task : Nat)

/-- The type of the answer to an action; nothing answers a failed `expect`. -/
@[reducible] def Act.Res : Act → Type
  | .readConfig => Config
  | .getPlugin _ => Option Plugin
  | .evaluate _ _ _ => Verdict
  | .subsecNanos => Nat
  | .getBalancer _ => Option LoadBalancer
  | .fetchAdd _ _ => Nat
  | .isHealthy _ => Bool
  | .sendRequest _ _ _ => Outcome
  | .expectFailed _ => Empty
  | .startProber => ProbeSpec
  | .exchange _ _ _ _ => Option (List UInt8)
  | .getFlag _ => Option Nat
  | .getOrInsertFlag _ => Nat
  | .swapFlag _ _ _ => Bool
  | .readToString _ => Except String String
  | .readFile _ => Except String (List UInt8)
  | .newCounters _ => Nat
  | .spawnProber _ => Nat
  | .replaceHandles _ => List Nat
  | _ => Unit

abbrev Program (α : Type) := Prog Act Act.Res α
abbrev call (a : Act) : Program a.Res := Prog.call a

/-! ## The shared state -/

/-- The tasks: any number of connections' requests, the reload task, the prober
    tasks in the order in which they were spawned, and the runtime that stops them. -/
inductive Tid where
  | request (n : Nat)
  | reload
  | prober (n : Nat)
  | runtime (n : Nat)
  | main
  deriving DecidableEq

/-- A prober task runs, has been aborted but not dropped yet, or is gone. -/
inductive TaskStatus where
  | running
  | aborted
  | stopped
  deriving DecidableEq

structure Task where
  spec : ProbeSpec
  status : TaskStatus
  deriving DecidableEq

/-- The stores that the tasks share: `config_handle` with the tasks that hold a read
    guard of it, `lb_cache` with the balancers' counters, `plugin_cache`, the flags
    of the health registry, the handles of the probers and the prober tasks. -/
structure Store where
  config : Config
  guards : List Tid
  lbCache : Table String LoadBalancer
  counters : Nat → Nat
  nextCounter : Nat
  pluginCache : Table String Plugin
  flags : Table String Nat
  flagValues : Nat → Bool
  nextFlag : Nat
  handles : List Nat
  tasks : List Task

/-- What the outside supplies to an action. -/
structure Outside where
  nanos : Nat
  outcome : Outcome
  reply : Option (List UInt8)
  text : Except String String
  file : String → Except String (List UInt8)

namespace Store

/-- Before the engine is built. -/
def initial : Store where
  config := ⟨[], []⟩
  guards := []
  lbCache := Table.empty
  counters _ := 0
  nextCounter := 0
  pluginCache := Table.empty
  flags := Table.empty
  flagValues _ := true
  nextFlag := 0
  handles := []
  tasks := []

/-- `HealthRegistry::is_healthy`: an address without a flag reads as healthy. -/
def isHealthy (s : Store) (addr : String) : Bool :=
  match s.flags.get addr with
  | some flag => s.flagValues flag
  | none => true

def setStatus (s : Store) (task : Nat) (status : TaskStatus) : Store :=
  { s with tasks := s.tasks.modify task fun t => { t with status } }

@[simp] theorem setStatus_eq (s : Store) (task : Nat) (status : TaskStatus) :
    s.setStatus task status = { s with tasks := s.tasks.modify task fun t => { t with status } } := rfl

/-- A prober task may act once it was spawned and until it was dropped. -/
def mayAct (s : Store) : Tid → Bool
  | .prober n => (s.tasks[n]?).any fun t => t.status ≠ .stopped
  | _ => true

end Store

/-- One action of task `t`, if it can happen now. -/
def perform (crates : Crates) (o : Outside) (t : Tid) (a : Act) (s : Store) : Option (a.Res × Store) :=
  if !s.mayAct t then none
  else match a with
  -- Also while the write lock waits, where the fair lock lets nobody read: its runs are among these.
  | .readConfig => some (s.config, { s with guards := t :: s.guards })
  | .dropConfig => some ((), { s with guards := s.guards.erase t })
  | .getPlugin path => some (s.pluginCache.get path, s)
  | .evaluate plugin method path => some (Plugins.evaluate crates.wasm plugin method path, s)
  | .subsecNanos => some (o.nanos, s)
  | .spawnMirror _ _ _ => some ((), s)
  | .mirrorFailed _ _ => some ((), s)
  | .getBalancer name => some (s.lbCache.get name, s)
  | .fetchAdd counter bits =>
    some (s.counters counter,
      { s with counters := Function.update s.counters counter ((s.counters counter + 1) % 2 ^ bits) })
  | .isHealthy addr => some (s.isHealthy addr, s)
  | .sendRequest _ _ _ => some (o.outcome, s)
  | .failUnsent _ _ => some ((), s)
  | .expectFailed _ => none
  | .respond _ => some ((), s)
  | .startProber =>
    match t with
    | .prober n => (s.tasks[n]?).map fun task => (task.spec, s)
    | _ => none
  | .exchange _ _ _ _ => some (o.reply, s)
  | .getFlag addr => some (s.flags.get addr, s)
  | .getOrInsertFlag addr =>
    match s.flags.get addr with
    | some flag => some (flag, s)
    | none => some (s.nextFlag, { s with
        flags := s.flags.insert addr s.nextFlag
        flagValues := Function.update s.flagValues s.nextFlag true
        nextFlag := s.nextFlag + 1 })
  | .swapFlag _ flag healthy =>
    some (s.flagValues flag, { s with flagValues := Function.update s.flagValues flag healthy })
  | .logTransition _ _ => some ((), s)
  | .sleep _ => some ((), s)
  | .recvSighup => some ((), s)
  | .readToString _ => some (o.text, s)
  | .readFile path => some (o.file path, s)
  | .newCounters count =>
    some (s.nextCounter, { s with
      counters := fun c => if s.nextCounter ≤ c then 0 else s.counters c
      nextCounter := s.nextCounter + count })
  | .spawnProber spec => some (s.tasks.length, { s with tasks := s.tasks ++ [⟨spec, .running⟩] })
  | .writeLbCache cache => some ((), { s with lbCache := cache })
  | .writePluginCache cache => some ((), { s with pluginCache := cache })
  -- The write lock waits until no read guard is held.
  | .writeConfig config => if s.guards = [] then some ((), { s with config }) else none
  | .replaceHandles handles => some (s.handles, { s with handles })
  | .abort handle =>
    some ((), if (s.tasks[handle]?).any fun task => task.status = .running then s.setStatus handle .aborted else s)
  | .stopTask task =>
    if (s.tasks[task]?).any fun task => task.status = .aborted then some ((), s.setStatus task .stopped) else none

/-! ## What an action changes -/

/-- Which action can change which of the shared stores, and how. -/
structure Changes (t : Tid) (a : Act) (s s' : Store) : Prop where
  config : s'.config = s.config ∨ s.guards = [] ∧ a = .writeConfig s'.config
  guards : s'.guards = s.guards ∨ (a = .readConfig ∧ s'.guards = t :: s.guards) ∨
    (a = .dropConfig ∧ s'.guards = s.guards.erase t)
  lbCache : s'.lbCache = s.lbCache ∨ a = .writeLbCache s'.lbCache
  pluginCache : s'.pluginCache = s.pluginCache ∨ a = .writePluginCache s'.pluginCache
  flags : (s'.flags = s.flags ∧ s'.nextFlag = s.nextFlag) ∨ ∃ addr, a = .getOrInsertFlag addr
  flagValues : s'.flagValues = s.flagValues ∨ (∃ addr, a = .getOrInsertFlag addr) ∨
    ∃ addr flag healthy, a = .swapFlag addr flag healthy

/-- Which of the counters and of the probers' targets an action leaves as they are. -/
structure Leaves (a : Act) (s s' : Store) : Prop where
  counters : ∀ cell, (∀ count, a ≠ .newCounters count) → (∀ bits, a ≠ .fetchAdd cell bits) →
    s'.counters cell = s.counters cell
  specs : (∀ spec, a ≠ .spawnProber spec) → s'.tasks.map (·.spec) = s.tasks.map (·.spec)

theorem map_modify_same {α β : Type} {f : α → β} {g : α → α} (xs : List α) (i : Nat) (same : ∀ x, f (g x) = f x) :
    (xs.modify i g).map f = xs.map f := by
  induction xs generalizing i with
  | nil => simp
  | cons x rest ih =>
    cases i with
    | zero => simp [same]
    | succ i => simp [ih]

section
variable {crates : Crates} {o : Outside} {t : Tid} {a : Act} {s s' : Store} {r : a.Res}

theorem perform_changes (done : perform crates o t a s = some (r, s')) : Changes t a s s' := by
  unfold perform at done
  split at done
  · cases done
  · cases a <;> simp only [Option.some.injEq, Prod.mk.injEq, reduceCtorEq] at done
    case getOrInsertFlag addr =>
      split at done <;> simp only [Option.some.injEq, Prod.mk.injEq] at done <;> obtain ⟨-, rfl⟩ := done <;>
        constructor <;> simp
    case startProber =>
      split at done
      · obtain ⟨task, -, same⟩ := Option.map_eq_some_iff.mp done
        obtain ⟨-, rfl⟩ := Prod.mk.inj same
        constructor <;> simp
      · cases done
    case writeConfig config =>
      split at done
      · rename_i free
        simp only [Option.some.injEq, Prod.mk.injEq] at done
        obtain ⟨-, rfl⟩ := done
        constructor <;> simp [free]
      · cases done
    case stopTask task =>
      split at done
      · simp only [Option.some.injEq, Prod.mk.injEq] at done
        obtain ⟨-, rfl⟩ := done
        constructor <;> simp
      · cases done
    case abort handle =>
      obtain ⟨-, rfl⟩ := done
      split <;> constructor <;> simp
    all_goals
      obtain ⟨-, rfl⟩ := done
      constructor <;> simp

theorem perform_leaves (done : perform crates o t a s = some (r, s')) : Leaves a s s' := by
  unfold perform at done
  split at done
  · cases done
  · cases a <;> simp only [Option.some.injEq, Prod.mk.injEq, reduceCtorEq] at done
    case fetchAdd counter bits =>
      obtain ⟨-, rfl⟩ := done
      refine ⟨fun cell _ other => ?_, fun _ => rfl⟩
      have different : cell ≠ counter := fun same => other bits (same ▸ rfl)
      simp [Function.update_of_ne different]
    case newCounters count =>
      obtain ⟨-, rfl⟩ := done
      exact ⟨fun _ fresh _ => absurd rfl (fresh count), fun _ => rfl⟩
    case spawnProber spec =>
      obtain ⟨-, rfl⟩ := done
      exact ⟨fun _ _ _ => rfl, fun other => absurd rfl (other spec)⟩
    case getOrInsertFlag addr =>
      split at done <;> cases done <;> exact ⟨fun _ _ _ => rfl, fun _ => rfl⟩
    case startProber =>
      split at done
      · obtain ⟨task, -, same⟩ := Option.map_eq_some_iff.mp done
        cases same
        exact ⟨fun _ _ _ => rfl, fun _ => rfl⟩
      · cases done
    case writeConfig config =>
      split at done <;> cases done
      exact ⟨fun _ _ _ => rfl, fun _ => rfl⟩
    case stopTask task =>
      split at done <;> cases done
      exact ⟨fun _ _ _ => rfl, fun _ => map_modify_same _ _ fun _ => rfl⟩
    case abort handle =>
      obtain ⟨-, rfl⟩ := done
      split
      · exact ⟨fun _ _ _ => rfl, fun _ => map_modify_same _ _ fun _ => rfl⟩
      · exact ⟨fun _ _ _ => rfl, fun _ => rfl⟩
    all_goals
      obtain ⟨-, rfl⟩ := done
      exact ⟨fun _ _ _ => rfl, fun _ => rfl⟩

end

/-! ## What an action reads -/

section
variable {crates : Crates} {o : Outside} {t : Tid} {s s' : Store}

theorem perform_readConfig {config : Config}
    (done : perform crates o t .readConfig s = some (config, s')) :
    config = s.config ∧ s' = { s with guards := t :: s.guards } := by
  unfold perform at done
  split at done
  · cases done
  · cases done
    exact ⟨rfl, rfl⟩

theorem perform_getPlugin {path : String} {r : Option Plugin}
    (done : perform crates o t (.getPlugin path) s = some (r, s')) : r = s.pluginCache.get path := by
  unfold perform at done
  split at done
  · cases done
  · cases done
    rfl

theorem perform_dropConfig {r : Unit} (done : perform crates o t .dropConfig s = some (r, s')) :
    s'.guards = s.guards.erase t := by
  unfold perform at done
  split at done
  · cases done
  · cases done
    rfl

theorem perform_writeConfig {config : Config} {r : Unit}
    (done : perform crates o t (.writeConfig config) s = some (r, s')) : s.guards = [] ∧ s' = { s with config } := by
  unfold perform at done
  split at done
  · cases done
  · simp only at done
    split at done
    · rename_i free
      cases done
      exact ⟨free, rfl⟩
    · cases done

theorem perform_replaceHandles {handles previous : List Nat}
    (done : perform crates o t (.replaceHandles handles) s = some (previous, s')) :
    previous = s.handles ∧ s' = { s with handles } := by
  unfold perform at done
  split at done
  · cases done
  · cases done
    exact ⟨rfl, rfl⟩

theorem perform_writePluginCache {cache : Table String Plugin} {r : Unit}
    (done : perform crates o t (.writePluginCache cache) s = some (r, s')) : s'.pluginCache = cache := by
  unfold perform at done
  split at done
  · cases done
  · cases done
    rfl

theorem perform_writeLbCache {cache : Table String LoadBalancer} {r : Unit}
    (done : perform crates o t (.writeLbCache cache) s = some (r, s')) : s'.lbCache = cache := by
  unfold perform at done
  split at done
  · cases done
  · cases done
    rfl

theorem perform_getFlag {addr : String} {r : Option Nat}
    (done : perform crates o t (.getFlag addr) s = some (r, s')) : r = s.flags.get addr ∧ s' = s := by
  unfold perform at done
  split at done
  · cases done
  · cases done
    exact ⟨rfl, rfl⟩

/-- The flag of the address, which is there already or new and set. -/
theorem perform_getOrInsertFlag {addr : String} {flag : Nat}
    (done : perform crates o t (.getOrInsertFlag addr) s = some (flag, s')) :
    (s.flags.get addr = some flag ∧ s' = s) ∨ (s.flags.get addr = none ∧ flag = s.nextFlag ∧
      s' = { s with
        flags := s.flags.insert addr flag
        flagValues := Function.update s.flagValues flag true
        nextFlag := flag + 1 }) := by
  unfold perform at done
  split at done
  · cases done
  · simp only at done
    split at done
    · rename_i present
      cases done
      exact .inl ⟨present, rfl⟩
    · rename_i absent
      cases done
      exact .inr ⟨absent, rfl, rfl⟩

theorem perform_swapFlag {addr : String} {flag : Nat} {healthy before : Bool}
    (done : perform crates o t (.swapFlag addr flag healthy) s = some (before, s')) :
    s' = { s with flagValues := Function.update s.flagValues flag healthy } := by
  unfold perform at done
  split at done
  · cases done
  · cases done
    rfl

/-- A swap answers with what the flag held. -/
theorem perform_swapFlag_before {addr : String} {flag : Nat} {healthy before : Bool}
    (done : perform crates o t (.swapFlag addr flag healthy) s = some (before, s')) : before = s.flagValues flag := by
  unfold perform at done
  split at done
  · cases done
  · cases done
    rfl

theorem perform_isHealthy {addr : String} {answer : Bool}
    (done : perform crates o t (.isHealthy addr) s = some (answer, s')) : answer = s.isHealthy addr := by
  unfold perform at done
  split at done
  · cases done
  · cases done
    rfl

/-- A read of the health of an address answers with what the registry says at that moment. -/
theorem reaches_isHealthy {meets : Pool.World Tid Act.Res Store → Tid → Prop} {w w' : Pool.World Tid Act.Res Store}
    {addr : String} {answer : Bool} {before after : List (Tid × Event Act.Res)} (empty : w.log = [])
    (reaches : Pool.Reaches (perform crates) meets w w')
    (split : w'.log = before ++ (t, ⟨.isHealthy addr, answer⟩) :: after) :
    ∃ w₁, Pool.Reaches (perform crates) meets w w₁ ∧ w₁.log = before ∧ answer = w₁.state.isHealthy addr := by
  have shape : w'.log = w.log ++ before ++ (t, ⟨.isHealthy addr, answer⟩) :: after := by
    rw [empty, List.nil_append, split]
  obtain ⟨o, w₁, next, s, earlier, logged, -, -, done⟩ := Pool.reaches_event reaches shape
  rw [empty, List.nil_append] at logged
  exact ⟨w₁, earlier, logged, perform_isHealthy done⟩

theorem perform_getBalancer {name : String} {r : Option LoadBalancer}
    (done : perform crates o t (.getBalancer name) s = some (r, s')) : r = s.lbCache.get name := by
  unfold perform at done
  split at done
  · cases done
  · cases done
    rfl

end

end Torana
