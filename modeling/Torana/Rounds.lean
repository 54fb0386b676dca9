import Torana.Installing

/-!
Start-up and reloads one after the other: what the start leaves in the stores, and
what one SIGHUP does to them. A config is accepted exactly when it can be read,
parsed, validated and all its plugins load; then every store and every prober is
replaced, and otherwise nothing is.
-/
namespace Torana
open Config (Build)
open Plugins (Plugin Wasmtime pluginPaths)
open Upstream (LoadBalancer buildLbMap)
open Pool (alone alone_act alone_bind alone_call alone_call_bind alone_keeps alone_ret)

namespace Rounds
open Reload Installing

/-! ## Plugins -/

/-- The cache holds exactly the plugins of the config, as the files load. -/
structure PluginsOf (wasm : Wasmtime) (files : String → Except String (List UInt8)) (config : Config)
    (cache : Table String Plugin) : Prop where
  complete : ∀ path ∈ pluginPaths config, ∃ plugin, cache.get path = some plugin
  loaded : ∀ path plugin, cache.get path = some plugin →
    path ∈ pluginPaths config ∧ Plugins.load wasm path (files path) = .ok plugin

/-- Every plugin that the config names loads from the files. -/
def AllLoad (wasm : Wasmtime) (files : String → Except String (List UInt8)) (config : Config) : Prop :=
  ∀ path ∈ pluginPaths config, ∃ plugin, Plugins.load wasm path (files path) = .ok plugin

theorem pluginsOf_allLoad {wasm : Wasmtime} {files : String → Except String (List UInt8)} {config : Config}
    {cache : Table String Plugin} (plugins : PluginsOf wasm files config cache) : AllLoad wasm files config := by
  intro path named
  obtain ⟨plugin, found⟩ := plugins.complete path named
  exact ⟨plugin, (plugins.loaded path plugin found).2⟩

section
variable (build : Build) (crates : Crates) {o : Outside} {t : Tid}

/-- Compiling plugins gives all of them or fails because one does not load. -/
theorem alone_compilePlugins (able : ∀ s : Store, s.mayAct t = true) (config : Config) (s : Store) :
    (∃ cache, alone (perform crates) o t (compilePlugins build crates config) s = some (.ok cache, s) ∧
      (build.plugins = true → PluginsOf crates.wasm o.file config cache)) ∨
    ∃ e, alone (perform crates) o t (compilePlugins build crates config) s = some (.error e, s) ∧
      build.plugins = true ∧ ¬ AllLoad crates.wasm o.file config := by
  by_cases active : build.plugins = true
  · have reads : ∀ (past : History) (a : Act), ReadsFile a → ∃ r, perform crates o t a s = some (r, s) := by
      rintro _ a ⟨path, rfl⟩
      exact ⟨o.file path, by simp [perform, able]⟩
    obtain ⟨result, more, ends, compiles, answered⟩ := alone_keeps reads (compilePlugins_keeps build crates config [])
    have files : ∀ path file, ⟨.readFile path, file⟩ ∈ more → file = o.file path := by
      intro path file member
      have done := answered _ member
      simp only [perform, able, Bool.not_true, Bool.false_eq_true, if_false, Option.some.injEq, Prod.mk.injEq,
        and_true] at done
      exact done.symm
    have compiles := compiles active
    rw [List.nil_append] at compiles
    cases result with
    | ok cache =>
      refine .inl ⟨cache, ends, fun _ => ⟨compiles.complete, fun path plugin found => ?_⟩⟩
      obtain ⟨named, file, read, made⟩ := compiles.loaded path plugin found
      exact ⟨named, files path file read ▸ made⟩
    | error e =>
      obtain ⟨path, named, file, e', read, failed⟩ := compiles
      refine .inr ⟨e, ends, active, fun all => ?_⟩
      obtain ⟨plugin, made⟩ := all path named
      rw [← files path file read, failed] at made
      cases made
  · refine .inl ⟨Table.empty, ?_, fun yes => absurd yes active⟩
    rw [compilePlugins, if_neg active]
    rfl

/-! ## Stores and probers -/

/-- `JoinHandle::abort`: a task that runs is marked. -/
def abortTask (tasks : List Task) (handle : Nat) : List Task :=
  if (tasks[handle]?).any fun task => task.status = .running then
    tasks.modify handle fun task => { task with status := .aborted }
  else tasks

def running (spec : ProbeSpec) : Task := ⟨spec, .running⟩

theorem alone_spawnProbers (able : ∀ s : Store, s.mayAct t = true) (specs : List ProbeSpec) (s : Store) :
    alone (perform crates) o t (Health.spawnProbers specs) s =
      some (List.range' s.tasks.length specs.length, { s with tasks := s.tasks ++ specs.map running }) := by
  induction specs generalizing s with
  | nil => simp [Health.spawnProbers]
  | cons spec rest ih =>
    have spawned : perform crates o t (.spawnProber spec) s =
        some (s.tasks.length, { s with tasks := s.tasks ++ [running spec] }) := by
      simp [perform, able, running]
    rw [Health.spawnProbers, alone_call_bind, spawned, Option.bind_some, alone_bind, ih]
    simp [List.range'_succ]

theorem alone_abortAll (handles : List Nat) (s : Store) :
    alone (perform crates) o .reload (abortAll handles) s =
      some ((), { s with tasks := handles.foldl abortTask s.tasks }) := by
  induction handles generalizing s with
  | nil => rfl
  | cons handle rest ih =>
    have aborted : perform crates o .reload (.abort handle) s =
        some ((), { s with tasks := abortTask s.tasks handle }) := by
      show some ((), _) = _
      unfold abortTask
      split <;> rfl
    rw [abortAll, alone_call_bind, aborted, Option.bind_some, ih, List.foldl_cons]

/-- The stores after a swap. -/
def swapped (config : Config) (lbs : Table String LoadBalancer) (plugins : Table String Plugin) (s : Store) : Store :=
  { s with config, lbCache := lbs, pluginCache := if build.plugins then plugins else s.pluginCache }

theorem alone_swapStores (able : ∀ s : Store, s.mayAct t = true) (config : Config) (lbs : Table String LoadBalancer)
    (plugins : Table String Plugin) {s : Store} (free : s.guards = []) :
    alone (perform crates) o t (swapStores build config lbs plugins) s =
      some ((), swapped build config lbs plugins s) := by
  unfold swapStores writePlugins
  by_cases active : build.plugins = true
  · simp [active, alone_act, alone_call, perform, able, free, swapped]
  · simp [active, alone_act, alone_call, perform, able, free, swapped]

/-- The balancers of a new config count in fresh cells. -/
def counted (config : Config) (s : Store) : Store :=
  { s with
    counters := fun c => if s.nextCounter ≤ c then 0 else s.counters c
    nextCounter := s.nextCounter + config.route.length }

theorem alone_newLbMap (able : ∀ s : Store, s.mayAct t = true) (config : Config) (s : Store) :
    alone (perform crates) o t (newLbMap config) s = some (buildLbMap s.nextCounter config, counted config s) := by
  simp [newLbMap, alone_act, perform, able, counted]

/-- The store after a config was installed. -/
def installed (config : Config) (plugins : Table String Plugin) (s : Store) : Store :=
  { swapped build config (buildLbMap s.nextCounter config) plugins (counted config s) with
    handles := List.range' s.tasks.length (Health.probeSpecs config).length
    tasks := s.handles.foldl abortTask (s.tasks ++ (Health.probeSpecs config).map running) }

theorem alone_install (config : Config) (plugins : Table String Plugin) {s : Store} (free : s.guards = []) :
    alone (perform crates) o .reload (install build config plugins) s =
      some ((), installed build config plugins s) := by
  have able : ∀ s : Store, s.mayAct .reload = true := fun _ => rfl
  have replaced : ∀ handles (s : Store), perform crates o .reload (.replaceHandles handles) s =
      some (s.handles, { s with handles }) := fun _ _ => rfl
  unfold install Health.spawnAllProbers
  rw [alone_bind, alone_newLbMap crates able, Option.bind_some, alone_bind, alone_spawnProbers crates able,
    Option.bind_some, alone_bind, alone_swapStores build crates able _ _ _ (by exact free), Option.bind_some,
    alone_call_bind, replaced, Option.bind_some, alone_abortAll]
  rfl

/-! ## One round -/

/-- The config that the outside offers, if nothing speaks against it. -/
structure Good (o : Outside) (config : Config) : Prop where
  parsed : ∃ content, o.text = .ok content ∧ crates.parseToml content = .ok config
  valid : config.validate build crates.parseUri = .ok ()
  plugins : build.plugins = true → AllLoad crates.wasm o.file config

/-- What one SIGHUP comes to. -/
inductive Round (o : Outside) (s : Store) : Except String Config → Store → Prop where
  | rejected (e : String) (bad : ∀ config, ¬ Good build crates o config) : Round o s (.error e) s
  | accepted (config : Config) (plugins : Table String Plugin) (good : Good build crates o config)
      (loaded : build.plugins = true → PluginsOf crates.wasm o.file config plugins) :
      Round o s (.ok config) (installed build config plugins s)

theorem alone_reloadOnce (configPath : String) {s : Store} (free : s.guards = []) :
    ∃ result s', alone (perform crates) o .reload (reloadOnce build crates configPath) s = some (result, s') ∧
      Round build crates o s result s' := by
  have able : ∀ s : Store, s.mayAct .reload = true := fun _ => rfl
  have signal : perform crates o .reload .recvSighup s = some ((), s) := rfl
  have read : perform crates o .reload (.readToString configPath) s = some (o.text, s) := rfl
  unfold reloadOnce loadConfig
  rw [alone_call_bind, signal, Option.bind_some, alone_bind, alone_call_bind, read, Option.bind_some, Prog.pure_eq,
    alone_ret, Option.bind_some]
  cases loads : Config.loaded crates.parseToml configPath o.text with
  | error e =>
    refine ⟨.error e, s, rfl, .rejected _ fun config good => ?_⟩
    cases loads.symm.trans (Config.loaded_ok.mpr good.parsed)
  | ok config =>
    have only : ∀ config', Good build crates o config' → config' = config := by
      intro config' good
      cases loads.symm.trans (Config.loaded_ok.mpr good.parsed)
      rfl
    simp only
    cases valid : config.validate build crates.parseUri with
    | error e =>
      refine ⟨.error e, s, rfl, .rejected _ fun config' good => ?_⟩
      obtain rfl := only config' good
      cases valid.symm.trans good.valid
    | ok u =>
      simp only [alone_bind]
      rcases alone_compilePlugins build crates able config s with ⟨cache, ends, loaded⟩ | ⟨e, ends, active, fails⟩
      · rw [ends, Option.bind_some]
        simp only [alone_bind, alone_install build crates config cache free, Option.bind_some, Prog.pure_eq, alone_ret]
        refine ⟨_, _, rfl, .accepted config cache ⟨Config.loaded_ok.mp loads, valid, fun active => ?_⟩ loaded⟩
        exact pluginsOf_allLoad (loaded active)
      · rw [ends, Option.bind_some]
        refine ⟨.error e, s, rfl, .rejected _ fun config' good => ?_⟩
        obtain rfl := only config' good
        exact fails (good.plugins active)

/-! ## Start -/

/-- The store after the start, with the plugins that were cached. -/
def started (config : Config) (plugins : Table String Plugin) : Store :=
  { swapped build config (buildLbMap 0 config) plugins (counted config Store.initial) with
    handles := List.range' 0 (Health.probeSpecs config).length
    tasks := (Health.probeSpecs config).map running }

theorem alone_newEngine (config : Config) :
    ∃ plugins, alone (perform crates) o .main (newEngine build crates config) Store.initial =
        some ((), swapped build config (buildLbMap 0 config) plugins (counted config Store.initial)) ∧
      (build.plugins = true → PluginsOf crates.wasm o.file config plugins ∨
        plugins = Table.empty ∧ ¬ AllLoad crates.wasm o.file config) := by
  have able : ∀ s : Store, s.mayAct .main = true := fun _ => rfl
  unfold newEngine
  rw [alone_bind]
  rcases alone_compilePlugins build crates able config Store.initial with
    ⟨cache, ends, loaded⟩ | ⟨e, ends, active, fails⟩
  · refine ⟨cache, ?_, fun active => .inl (loaded active)⟩
    rw [ends, Option.bind_some, alone_bind, alone_newLbMap crates able, Option.bind_some]
    exact alone_swapStores build crates able config _ cache rfl
  · refine ⟨Table.empty, ?_, fun _ => .inr ⟨rfl, fails⟩⟩
    rw [ends, Option.bind_some, alone_bind, alone_newLbMap crates able, Option.bind_some]
    exact alone_swapStores build crates able config _ Table.empty rfl

/-- The start caches the plugins of the config, or none if one does not load. -/
theorem alone_start (config : Config) :
    ∃ plugins, alone (perform crates) o .main (start build crates config) Store.initial =
        some ((), started build config plugins) ∧
      (build.plugins = true → PluginsOf crates.wasm o.file config plugins ∨
        plugins = Table.empty ∧ ¬ AllLoad crates.wasm o.file config) := by
  have able : ∀ s : Store, s.mayAct .main = true := fun _ => rfl
  have read : ∀ s : Store, perform crates o .main .readConfig s =
      some (s.config, { s with guards := .main :: s.guards }) :=
    fun _ => rfl
  have dropped : ∀ s : Store, perform crates o .main .dropConfig s =
      some ((), { s with guards := s.guards.erase .main }) :=
    fun _ => rfl
  have replaced : ∀ handles (s : Store), perform crates o .main (.replaceHandles handles) s =
      some (s.handles, { s with handles }) := fun _ _ => rfl
  obtain ⟨plugins, built, cached⟩ := alone_newEngine build crates (o := o) config
  refine ⟨plugins, ?_, cached⟩
  unfold start spawnHealthProbers Health.spawnAllProbers
  rw [alone_bind, built, Option.bind_some, alone_bind, alone_call_bind, read, Option.bind_some, alone_bind,
    alone_spawnProbers crates able, Option.bind_some, alone_call_bind, dropped, Option.bind_some]
  simp only [Prog.pure_eq, alone_ret, Option.bind_some, alone_call_bind, replaced]
  simp [started, swapped, counted, Store.initial]

/-! ## One round after the other -/

variable (configPath : String)

/-- Handle signals one after the other, each against what the outside offers then. -/
def signals : List Outside → Store → Option Store
  | [], s => some s
  | o :: later, s =>
    (alone (perform crates) o .reload (reloadOnce build crates configPath) s).bind fun done => signals later done.2

/-- The config that is installed behind a sequence of offers, with the files from which its
    plugins were loaded: those of the last good offer. -/
inductive Current (first : Config) (files : String → Except String (List UInt8)) :
    List Outside → Config → (String → Except String (List UInt8)) → Prop where
  | start : Current first files [] first files
  | kept {os : List Outside} {o : Outside} {config : Config} {loaded : String → Except String (List UInt8)}
      (before : Current first files os config loaded) (bad : ∀ config, ¬ Good build crates o config) :
      Current first files (os ++ [o]) config loaded
  | replaced {os : List Outside} {o : Outside} {config config' : Config} {loaded : String → Except String (List UInt8)}
      (before : Current first files os config loaded) (good : Good build crates o config') :
      Current first files (os ++ [o]) config' o.file

theorem signals_append (os later : List Outside) (s : Store) :
    signals build crates configPath (os ++ later) s =
      (signals build crates configPath os s).bind (signals build crates configPath later) := by
  induction os generalizing s with
  | nil => rfl
  | cons o os ih => simp only [List.cons_append, signals, Option.bind_assoc, ih]

end

end Rounds
end Torana
