import Torana.System

/-!
What a reload does to the stores while others run. The plugins that it compiles
are those of the new config, each loaded from what its file held. It replaces
`lb_cache`, `plugin_cache` and `config_handle` one after the other; `Phase` is
where it stands, and each phase says which config every store derives from.
-/
namespace Torana
open Config (Build RouteConfig)
open Plugins (Plugin Wasmtime pluginPaths)
open Upstream (LoadBalancer buildLbMap)
open Prog (Only Keeps keeps_bind keeps_call_bind keeps_mono only_bind only_call_bind only_of_keeps)
open Pool (Follows follows_bind follows_call_bind follows_keeps follows_mono)

namespace Installing
open Reload

/-! ## Compiled plugins -/

/-- The plugin was loaded from what its file held. -/
def Loaded (wasm : Wasmtime) (past : History) (path : String) (plugin : Plugin) : Prop :=
  ∃ file, ⟨.readFile path, file⟩ ∈ past ∧ Plugins.load wasm path file = .ok plugin

/-- The cache holds exactly the plugins of these files. -/
structure Compiled (wasm : Wasmtime) (past : History) (paths : List String) (cache : Table String Plugin) : Prop where
  complete : ∀ path ∈ paths, ∃ plugin, cache.get path = some plugin
  loaded : ∀ path plugin, cache.get path = some plugin → path ∈ paths ∧ Loaded wasm past path plugin

/-- What compiling plugins comes to: all of them, or one that does not load. -/
def Compiles (wasm : Wasmtime) (paths : List String) (past : History) :
    Except String (Table String Plugin) → Prop
  | .ok cache => Compiled wasm past paths cache
  | .error _ => ∃ path ∈ paths, ∃ file e, ⟨.readFile path, file⟩ ∈ past ∧ Plugins.load wasm path file = .error e

def ReadsFile (a : Act) : Prop := ∃ path, a = .readFile path

theorem loaded_append {wasm : Wasmtime} {past : History} (more : History) {path : String} {plugin : Plugin}
    (loaded : Loaded wasm past path plugin) : Loaded wasm (past ++ more) path plugin := by
  obtain ⟨file, read, made⟩ := loaded
  exact ⟨file, List.mem_append_left _ read, made⟩

theorem compiled_empty (wasm : Wasmtime) (past : History) : Compiled wasm past [] Table.empty :=
  ⟨by simp, fun path plugin found => nomatch found⟩

theorem compiled_again {wasm : Wasmtime} {past : History} {done : List String} {cache : Table String Plugin}
    {path : String} (compiled : Compiled wasm past done cache) (known : cache.containsKey path = true) :
    Compiled wasm past (done ++ [path]) cache := by
  refine ⟨fun path' member => ?_, fun path' plugin found => ?_⟩
  · rcases List.mem_append.mp member with earlier | last
    · exact compiled.complete path' earlier
    · obtain rfl := List.mem_singleton.mp last
      exact Table.containsKey_iff.mp known
  · obtain ⟨listed, loaded⟩ := compiled.loaded path' plugin found
    exact ⟨List.mem_append_left _ listed, loaded⟩

theorem compiled_insert {wasm : Wasmtime} {past : History} {done : List String} {cache : Table String Plugin}
    {path : String} {plugin : Plugin} {file : Except String (List UInt8)} (compiled : Compiled wasm past done cache)
    (made : Plugins.load wasm path file = .ok plugin) :
    Compiled wasm (past ++ [⟨.readFile path, file⟩]) (done ++ [path]) (cache.insert path plugin) := by
  refine ⟨fun path' member => ?_, fun path' plugin' found => ?_⟩
  · rw [Table.get_insert]
    by_cases same : path' = path
    · exact ⟨plugin, if_pos same⟩
    · rw [if_neg same]
      exact compiled.complete path' (by simpa [same] using member)
  · rcases Table.get_insert_some found with ⟨rfl, rfl⟩ | ⟨-, earlier⟩
    · exact ⟨by simp, file, by simp, made⟩
    · obtain ⟨listed, loaded⟩ := compiled.loaded path' plugin' earlier
      exact ⟨List.mem_append_left _ listed, loaded_append _ loaded⟩

/-- The loop of `build_plugin_cache`: the cache holds the plugins of the routes behind it. -/
theorem buildPluginCacheFrom_keeps {wasm : Wasmtime} (routes : List RouteConfig) {past : History} {done : List String}
    {cache : Table String Plugin} (compiled : Compiled wasm past done cache) :
    Keeps (fun _ => ReadsFile) (Compiles wasm (done ++ routes.filterMap (·.plugin))) past
      (buildPluginCacheFrom wasm routes cache) := by
  induction routes generalizing past done cache with
  | nil => simpa [buildPluginCacheFrom, Compiles] using compiled
  | cons route rest ih =>
    unfold buildPluginCacheFrom
    cases guard : route.plugin with
    | none => simpa [guard] using ih compiled
    | some path =>
      have split : done ++ (route :: rest).filterMap (·.plugin) = (done ++ [path]) ++ rest.filterMap (·.plugin) := by
        simp [guard]
      rw [split]
      by_cases known : cache.containsKey path = true
      · simp only [known, if_true]
        exact ih (compiled_again compiled known)
      · simp only [known, Bool.false_eq_true, if_false, loadPlugin]
        refine keeps_bind.mpr (keeps_call_bind.mpr ⟨⟨path, rfl⟩, fun file => ?_⟩)
        cases made : Plugins.load wasm path file with
        | error e =>
          simp only [Prog.pure_eq, Prog.keeps_ret]
          exact ⟨path, by simp, file, e, by simp, made⟩
        | ok plugin =>
          simp only [Prog.pure_eq, Prog.keeps_ret]
          exact ih (compiled_insert compiled made)

theorem compilePlugins_keeps (build : Build) (crates : Crates) (config : Config) (past : History) :
    Keeps (fun _ => ReadsFile)
      (fun past result => build.plugins = true → Compiles crates.wasm (pluginPaths config) past result) past
      (compilePlugins build crates config) := by
  unfold compilePlugins
  split
  · have compiled := buildPluginCacheFrom_keeps config.route (compiled_empty crates.wasm past)
    exact keeps_mono (fun _ _ may => may) (fun _ _ compiles _ => compiles) compiled
  · rename_i without
    exact fun plugins => absurd plugins without

/-! ## The phases of a reload -/

/-- Where the reload stands among its writes: none is under way, `lb_cache` is written
    for a config, or `plugin_cache` is as well. -/
inductive Phase where
  | settled
  | balanced (config : Config)
  | filtered (config : Config)

/-- The actions that replace one of the three stores. -/
def replaces : Act → Bool
  | .writeLbCache _ | .writePluginCache _ | .writeConfig _ => true
  | _ => false

section
variable (lbOf : Config → Table String LoadBalancer → Prop) (pluginsOf : Config → Table String Plugin → Prop)

/-- The config that each store derives from. -/
def Phase.holds : Phase → Store → Prop
  | .settled, s => lbOf s.config s.lbCache ∧ pluginsOf s.config s.pluginCache
  | .balanced config, s => lbOf config s.lbCache ∧ pluginsOf s.config s.pluginCache
  | .filtered config, s => lbOf config s.lbCache ∧ pluginsOf config s.pluginCache

/-- What the reload does next. -/
def Phase.may (build : Build) : Phase → Act → Prop
  | .settled, a => (∀ cache, a ≠ .writePluginCache cache) ∧ ∀ config, a ≠ .writeConfig config
  | .balanced config, a => if build.plugins then ∃ cache, a = .writePluginCache cache else a = .writeConfig config
  | .filtered config, a => a = .writeConfig config

end

section
variable {lbOf : Config → Table String LoadBalancer → Prop} {pluginsOf : Config → Table String Plugin → Prop}

theorem quiet_stores {crates : Crates} {o : Outside} {t : Tid} {a : Act} {s s' : Store} {r : a.Res}
    (quiet : replaces a = false) (done : perform crates o t a s = some (r, s')) :
    s'.config = s.config ∧ s'.lbCache = s.lbCache ∧ s'.pluginCache = s.pluginCache := by
  have changes := perform_changes done
  refine ⟨?_, ?_, ?_⟩
  · rcases changes.config with same | ⟨_, wrote⟩
    · exact same
    · rw [wrote] at quiet
      cases quiet
  · rcases changes.lbCache with same | wrote
    · exact same
    · rw [wrote] at quiet
      cases quiet
  · rcases changes.pluginCache with same | wrote
    · exact same
    · rw [wrote] at quiet
      cases quiet

theorem quiet_holds {crates : Crates} {o : Outside} {t : Tid} {a : Act} {s s' : Store} {r : a.Res}
    (quiet : replaces a = false) (done : perform crates o t a s = some (r, s')) {phase : Phase}
    (here : phase.holds lbOf pluginsOf s) :
    phase.holds lbOf pluginsOf s' := by
  obtain ⟨config, lbCache, pluginCache⟩ := quiet_stores quiet done
  cases phase <;> simpa only [Phase.holds, config, lbCache, pluginCache] using here

theorem quiet_settled {build : Build} {a : Act} (quiet : replaces a = false) : Phase.settled.may build a := by
  constructor <;> rintro _ rfl <;> cases quiet

/-- Tasks of another role than the reload's replace none of the stores. -/
theorem role_quiet {a : Act} (other : a.role ≠ .reload) : replaces a = false := by
  cases a <;> first | rfl | exact absurd rfl other

end

section
variable {lbOf : Config → Table String LoadBalancer → Prop} {pluginsOf : Config → Table String Plugin → Prop}
  {build : Build} {crates : Crates}

/-- The outline of a part of the reload task. -/
abbrev Outline (lbOf : Config → Table String LoadBalancer → Prop) (pluginsOf : Config → Table String Plugin → Prop)
    (build : Build) (crates : Crates) {α : Type} (fin : Phase → α → Prop) :=
  Follows (perform crates) (Phase.holds lbOf pluginsOf) (fun phase _ => phase.may build) Tid.reload
    (fun phase (_ : History) => fin phase)

/-- Actions that replace nothing leave the reload between its rounds. -/
theorem quiet_outline {α : Type} {permitted : History → Act → Prop} {post : History → α → Prop}
    (quiet : ∀ past a, permitted past a → replaces a = false) {past : History} {p : Program α}
    (keeps : Keeps permitted post past p) :
    Outline lbOf pluginsOf build crates (fun phase value => phase = .settled ∧ ∃ past, post past value) .settled
      past p :=
  follows_mono (fun _ past _ ended => ⟨ended.1, past, ended.2⟩)
    (follows_keeps (fun past a may => ⟨quiet_settled (quiet past a may), fun _ _ _ _ here done =>
      quiet_holds (quiet past a may) done here⟩) keeps)

theorem spawnProbers_keeps (specs : List ProbeSpec) (past : History) :
    Keeps (fun _ a => ∃ spec, a = .spawnProber spec) (fun _ _ => True) past (Health.spawnProbers specs) := by
  induction specs generalizing past with
  | nil => trivial
  | cons spec rest ih =>
    refine keeps_call_bind.mpr ⟨⟨spec, rfl⟩, fun handle => keeps_bind.mpr ?_⟩
    exact keeps_mono (fun _ _ may => may) (fun _ _ _ => trivial) (ih _)

theorem abortAll_keeps (handles : List Nat) (past : History) :
    Keeps (fun _ a => ∃ handle, a = .abort handle) (fun _ _ => True) past (abortAll handles) := by
  induction handles generalizing past with
  | nil => trivial
  | cons handle rest ih => exact keeps_call_bind.mpr ⟨⟨handle, rfl⟩, fun _ => ih _⟩

/-- What the loaded config was parsed from. -/
def Parsed (crates : Crates) (configPath : String) (past : History) : Except String Config → Prop
  | .ok config => ∃ content, ⟨.readToString configPath, .ok content⟩ ∈ past ∧ crates.parseToml content = .ok config
  | .error _ => True

theorem loadConfig_parsed {configPath : String} (past : History) :
    Keeps (fun _ a => ∃ path, a = .readToString path) (Parsed crates configPath) past
      (Reload.loadConfig crates configPath) := by
  refine keeps_call_bind.mpr ⟨⟨configPath, rfl⟩, fun text => ?_⟩
  show Parsed crates configPath _ (Config.loaded crates.parseToml configPath text)
  cases loaded : Config.loaded crates.parseToml configPath text with
  | error e => trivial
  | ok config =>
    obtain ⟨content, rfl, parsed⟩ := Config.loaded_ok.mp loaded
    exact ⟨content, by simp, parsed⟩

theorem loadConfig_keeps (configPath : String) (past : History) :
    Keeps (fun _ a => ∃ path, a = .readToString path) (fun _ _ => True) past (loadConfig crates configPath) :=
  keeps_mono (fun _ _ may => may) (fun _ _ _ => trivial) (loadConfig_parsed past)

/-- The config was read, parsed and validated. -/
structure Named (build : Build) (crates : Crates) (configPath : String) (past : History) (config : Config) : Prop where
  read : Parsed crates configPath past (.ok config)
  valid : config.validate build crates.parseUri = .ok ()

theorem named_append {configPath : String} {past : History} {config : Config} (more : History)
    (named : Named build crates configPath past config) : Named build crates configPath (past ++ more) config := by
  obtain ⟨content, read, parsed⟩ := named.read
  exact ⟨⟨content, List.mem_append_left _ read, parsed⟩, named.valid⟩

/-- The actions of the reload. -/
def OfReload (a : Act) : Prop := a.role = .reload

theorem install_only (config : Config) (cache : Table String Plugin) :
    Only OfReload (install build config cache) := by
  have spawned : Only OfReload (Health.spawnAllProbers config) :=
    only_of_keeps (by rintro _ a ⟨spec, rfl⟩; rfl) (spawnProbers_keeps (Health.probeSpecs config) [])
  have written : Only OfReload (writePlugins build cache) := by
    unfold writePlugins
    split
    · exact ⟨rfl, fun _ => trivial⟩
    · trivial
  refine only_bind (only_call_bind rfl fun _ => trivial) fun lbs => only_bind spawned fun handles => ?_
  refine only_bind (only_call_bind rfl fun _ => only_bind written fun _ => ⟨rfl, fun _ => trivial⟩) fun _ => ?_
  refine only_call_bind rfl fun previous => ?_
  exact only_of_keeps (by rintro _ a ⟨handle, rfl⟩; rfl) (abortAll_keeps previous [])

theorem reloadOnce_only (configPath : String) : Only OfReload (reloadOnce build crates configPath) := by
  have loaded : Only OfReload (loadConfig crates configPath) :=
    only_of_keeps (by rintro _ a ⟨path, rfl⟩; rfl) (loadConfig_keeps configPath [])
  have compiled : ∀ config, Only OfReload (compilePlugins build crates config) := fun config =>
    only_of_keeps (by rintro _ a ⟨path, rfl⟩; rfl) (compilePlugins_keeps build crates config [])
  refine only_call_bind rfl fun _ => only_bind loaded fun config => ?_
  cases config with
  | error e => trivial
  | ok config =>
    simp only
    split
    · trivial
    · refine only_bind (compiled config) fun plugins => ?_
      cases plugins with
      | error e => trivial
      | ok cache => exact only_bind (install_only config cache) fun _ => trivial

theorem watchConfigSignal_only (configPath : String) (rounds : Nat) :
    Only OfReload (watchConfigSignal build crates configPath rounds) := by
  induction rounds with
  | zero => trivial
  | succ rounds ih => exact only_bind (reloadOnce_only configPath) fun _ => ih

section
variable (lbs : ∀ base config, lbOf config (buildLbMap base config))
  (plugins : ∀ past config cache,
    (build.plugins = true → Compiled crates.wasm past (pluginPaths config) cache) → pluginsOf config cache)

/-- After the write of `config_handle` every store derives from the new config. -/
theorem writeConfig_follows {phase : Phase} {config : Config} {past : History}
    (may : phase.may build (.writeConfig config))
    (derives : ∀ s, phase.holds lbOf pluginsOf s → lbOf config s.lbCache ∧ pluginsOf config s.pluginCache) :
    Outline lbOf pluginsOf build crates (fun phase _ => phase = .settled) phase past (call (.writeConfig config)) := by
  refine ⟨may, fun o s r s' here done => ⟨.settled, ?_, rfl⟩⟩
  have wrote : (if s.guards = [] then some ((), { s with config }) else none) = some (r, s') := done
  split at wrote
  · cases wrote
    exact derives s here
  · cases wrote

include plugins

theorem writePlugins_follows {config : Config} {cache : Table String Plugin} {read past : History}
    (compiled : build.plugins = true → Compiled crates.wasm read (pluginPaths config) cache) :
    Outline lbOf pluginsOf build crates (fun phase _ => phase = .settled) (.balanced config) past
      (writePlugins build cache >>= fun _ => call (.writeConfig config)) := by
  unfold writePlugins
  by_cases active : build.plugins = true
  · rw [if_pos active]
    refine follows_call_bind.mpr ⟨by simp [Phase.may, active], fun o s r s' here done => ⟨.filtered config, ?_, ?_⟩⟩
    · cases show some ((), { s with pluginCache := cache }) = some (r, s') from done
      exact ⟨here.1, plugins read config cache compiled⟩
    · exact writeConfig_follows rfl fun s here => here
  · rw [if_neg active]
    have anyCache : ∀ cache, pluginsOf config cache :=
      fun cache => plugins read config cache fun yes => absurd yes active
    exact writeConfig_follows (by simp [Phase.may, active]) fun s here => ⟨here.1, anyCache _⟩

include lbs

theorem install_follows {config : Config} {cache : Table String Plugin} {read past : History}
    (compiled : build.plugins = true → Compiled crates.wasm read (pluginPaths config) cache) :
    Outline lbOf pluginsOf build crates (fun phase _ => phase = .settled) .settled past
      (install build config cache) := by
  have counters : replaces (.newCounters config.route.length) = false := rfl
  refine follows_bind (follows_call_bind.mpr ⟨quiet_settled counters, fun o s base s' here done =>
    ⟨.settled, quiet_holds counters done here, ?_⟩⟩)
  refine follows_bind (follows_mono ?_ (quiet_outline ?_ (spawnProbers_keeps (Health.probeSpecs config) _)))
  · rintro phase past handles ⟨rfl, _⟩
    have swapped : Outline lbOf pluginsOf build crates (fun phase _ => phase = .settled) .settled past
        (swapStores build config (buildLbMap base config) cache) := by
      refine follows_call_bind.mpr ⟨by constructor <;> rintro _ ⟨⟩, fun o s r s' here done =>
        ⟨.balanced config, ?_, writePlugins_follows plugins compiled⟩⟩
      cases show some ((), { s with lbCache := buildLbMap base config }) = some (r, s') from done
      exact ⟨lbs base config, here.2⟩
    refine follows_bind (follows_mono ?_ swapped)
    rintro phase _ _ rfl
    have replaced : replaces (.replaceHandles handles) = false := rfl
    refine follows_call_bind.mpr ⟨quiet_settled replaced, fun o s previous s' here done =>
      ⟨.settled, quiet_holds replaced done here, ?_⟩⟩
    refine follows_mono (fun _ _ _ settled => settled.1) (quiet_outline ?_ (abortAll_keeps previous _))
    rintro _ a ⟨handle, rfl⟩
    rfl
  · rintro _ a ⟨spec, rfl⟩
    rfl

theorem reloadOnce_follows (configPath : String) (past : History) :
    Outline lbOf pluginsOf build crates (fun phase _ => phase = .settled) .settled past
      (reloadOnce build crates configPath) := by
  have signal : replaces .recvSighup = false := rfl
  refine follows_call_bind.mpr ⟨quiet_settled signal, fun o s r s' here done =>
    ⟨.settled, quiet_holds signal done here, ?_⟩⟩
  refine follows_bind (follows_mono ?_ (quiet_outline ?_ (loadConfig_keeps configPath _)))
  · rintro phase past loaded ⟨rfl, _⟩
    cases loaded with
    | error e => rfl
    | ok config =>
      simp only
      split
      · rfl
      · refine follows_bind (follows_mono ?_ (quiet_outline ?_ (compilePlugins_keeps build crates config _)))
        · rintro phase past result ⟨rfl, read, compiles⟩
          cases result with
          | error e => rfl
          | ok cache =>
            refine follows_bind (follows_mono ?_ (install_follows lbs plugins compiles))
            rintro phase _ _ rfl
            rfl
        · rintro _ a ⟨path, rfl⟩
          rfl
  · rintro _ a ⟨path, rfl⟩
    rfl

theorem watchConfigSignal_follows (configPath : String) (rounds : Nat) (past : History) :
    Outline lbOf pluginsOf build crates (fun phase _ => phase = .settled) .settled past
      (watchConfigSignal build crates configPath rounds) := by
  induction rounds generalizing past with
  | zero => rfl
  | succ rounds ih =>
    refine follows_bind (follows_mono ?_ (reloadOnce_follows lbs plugins configPath past))
    rintro phase past _ rfl
    exact ih past

end
end

/-- Every task performs actions of its own role only. -/
theorem program_only (sys : System) (t : Tid) : Only (fun a => a.role = t.role) (sys.program t) := by
  by_cases reload : t = .reload
  · subst reload
    exact watchConfigSignal_only sys.configPath sys.reloads
  · exact sys.program_role reload

/-- In every run the stores derive from the configs that the reload's phase says,
    if they derive from one config at the start. -/
theorem reaches_phase (sys : System) (lbOf : Config → Table String LoadBalancer → Prop)
    (pluginsOf : Config → Table String Plugin → Prop) (lbs : ∀ base config, lbOf config (buildLbMap base config))
    (plugins : ∀ past config cache,
      (sys.build.plugins = true → Compiled sys.crates.wasm past (pluginPaths config) cache) → pluginsOf config cache)
    {meets : System.World → Tid → Prop} {s : Store} {w : System.World}
    (start : lbOf s.config s.lbCache ∧ pluginsOf s.config s.pluginCache) (reaches : sys.Reaches meets s w) :
    ∃ phase : Phase, phase.holds lbOf pluginsOf w.state ∧
      Outline lbOf pluginsOf sys.build sys.crates (fun phase _ => phase = .settled) phase
        (Pool.own .reload w.log) (w.threads .reload) := by
  refine Pool.reaches_follows (fun a => a.role ≠ .reload) ?_ ?_ ?_ reaches
  · intro phase o t a s r s' _ other here done
    exact quiet_holds (role_quiet other) done here
  · intro t other
    refine Prog.only_mono (fun a same => ?_) (sys.program_role other)
    rw [same]
    cases t <;> first | exact absurd rfl other | simp [Tid.role]
  · exact ⟨.settled, start, watchConfigSignal_follows lbs plugins sys.configPath sys.reloads []⟩

/-- Behind the write of `plugin_cache` the reload is about to write the config. -/
theorem filtered_head {lbOf : Config → Table String LoadBalancer → Prop}
    {pluginsOf : Config → Table String Plugin → Prop} {build : Build} {crates : Crates} {config : Config}
    {past : History} {p : Program Unit}
    (outline : Outline lbOf pluginsOf build crates (fun phase _ => phase = .settled) (.filtered config) past p) :
    ∃ next, p = .act (.writeConfig config) next := by
  cases p with
  | ret value => cases outline
  | act a next =>
    obtain rfl := outline.1
    exact ⟨next, rfl⟩

end Installing
end Torana
