import Torana.Installing
import Torana.Samples

/-!
The plugin filter while reloads run. A request reads the config and, still holding
its guard, the plugin of the route that it selected; a reload replaces
`plugin_cache` before `config_handle`. A request that falls between the two reads
the plugin of the old config's route in the new config's cache: where the new
config does not name that plugin any more, it finds nothing and goes on without a filter.
-/
namespace Torana
open Http
open Config (Build RouteConfig)
open Plugins (Plugin pluginPaths)
open Prog (Keeps keeps_bind keeps_call_bind keeps_mono keeps_stable)

namespace Guarding
open Handling Installing

/-- Every route of the config that names a plugin has it in the cache. -/
def Covered (config : Config) (cache : Table String Plugin) : Prop :=
  ∀ path ∈ pluginPaths config, ∃ plugin, cache.get path = some plugin

/-- The plugin was there from the start, or the reload loaded it from the file. -/
def PluginFor (sys : System) (s : Store) (log : List (Tid × Event Act.Res)) (path : String) (plugin : Plugin) : Prop :=
  s.pluginCache.get path = some plugin ∨ Loaded sys.crates.wasm (Pool.own .reload log) path plugin

/-- The actions that send a request: an attempt or the mirror copy. -/
def sends : Act → Bool
  | .sendRequest _ _ _ | .spawnMirror _ _ _ => true
  | _ => false

/-- Only a request that passed the filter of its route is sent. -/
theorem may_serving {build : Build} {crates : Crates} {conn : Server.Conn} {req : Request Incoming} {past : History}
    {a : Act} {route : RouteConfig} (may : Handling.May build crates conn req past a) (sent : sends a = true)
    (choice : selected req past = some route) : Serving build req route past := by
  cases a with
  | sendRequest timeout addr out =>
    obtain ⟨served, body, serving, _⟩ := may
    cases choice.symm.trans serving.1
    exact serving
  | spawnMirror timeout addr out =>
    obtain ⟨served, mirror, serving, _⟩ := may
    cases choice.symm.trans serving.1
    exact serving
  | _ => cases sent

/-- Whatever was sent for a route with a plugin was sent after a plugin loaded for it
    allowed the request. -/
def Guarded (sys : System) (s : Store) (w : System.World) : Prop :=
  ∀ before n e after route path, w.log = before ++ (.request n, e) :: after → sends e.act = true →
    selected (sys.req n) (Pool.own (.request n) before) = some route → route.plugin = some path →
    ∃ plugin, PluginFor sys s before path plugin ∧
      (.request n, ⟨.evaluate plugin (sys.req n).parts.method.asStr (sys.req n).parts.uri.path, .allow⟩) ∈ before

/-- A request that reads `plugin_cache` while the reload is about to write
    `config_handle` reads a plugin that the new config names. -/
def readsInStep (w : System.World) (t : Tid) : Bool :=
  match w.threads t, w.threads .reload with
  | .act (.getPlugin path) _, .act (.writeConfig config) _ => decide (path ∈ pluginPaths config)
  | _, _ => true

/-! ## The guard of the config -/

/-- While a request has read the config and nothing else, the config stays. -/
theorem config_held {sys : System} {meets : System.World → Tid → Prop} {s : Store} {w : System.World} {n : Nat}
    {config : Config} (reaches : sys.Reaches meets s w)
    (read : Pool.own (.request n) w.log = ([⟨.readConfig, config⟩] : History)) :
    .request n ∈ w.state.guards ∧ w.state.config = config := by
  revert read
  refine Pool.reaches_invariant
    (fun w => Pool.own (.request n) w.log = ([⟨.readConfig, config⟩] : History) →
      .request n ∈ w.state.guards ∧ w.state.config = config) (by simp [System.world]) ?_ reaches
  intro o t w₁ w₂ _ held _ taken
  obtain ⟨a, next, r, s', _, done, rfl⟩ := Pool.step_cases taken
  intro read
  simp only [Pool.own_append] at read
  by_cases same : t = .request n
  · subst same
    rw [Pool.own_single_self] at read
    rcases List.append_eq_singleton_iff.mp read with ⟨_, event⟩ | ⟨_, without⟩
    · cases event
      obtain ⟨rfl, rfl⟩ := perform_readConfig done
      exact ⟨List.mem_cons_self, rfl⟩
    · cases without
  · rw [Pool.own_single_other _ same, List.append_nil] at read
    obtain ⟨guard, unchanged⟩ := held read
    have changes := perform_changes done
    constructor
    · rcases changes.guards with kept | ⟨_, more⟩ | ⟨_, less⟩
      · rwa [kept]
      · rw [more]
        exact List.mem_cons_of_mem _ guard
      · rw [less]
        exact (List.mem_erase_of_ne (Ne.symm same)).mpr guard
    · rcases changes.config with kept | ⟨free, _⟩
      · rwa [kept]
      · rw [free] at guard
        cases guard

/-! ## Where the cached plugins come from -/

/-- Every plugin that the action puts into `plugin_cache` was loaded from its file. -/
def WritesLoaded (wasm : Plugins.Wasmtime) (past : History) (a : Act) : Prop :=
  ∀ cache, a = .writePluginCache cache → ∀ path plugin, cache.get path = some plugin → Loaded wasm past path plugin

theorem quiet_writes {wasm : Plugins.Wasmtime} {past : History} {a : Act} (quiet : replaces a = false) :
    WritesLoaded wasm past a := by
  rintro cache rfl
  cases quiet

/-- Every plugin of a compiled cache was loaded from its file. -/
def AllLoaded (build : Build) (wasm : Plugins.Wasmtime) (cache : Table String Plugin) (past : History) : Prop :=
  build.plugins = true → ∀ path plugin, cache.get path = some plugin → Loaded wasm past path plugin

section
variable {build : Build} {crates : Crates} {config : Config} {cache : Table String Plugin} {past : History}

theorem allLoaded_append (more : History) (loaded : AllLoaded build crates.wasm cache past) :
    AllLoaded build crates.wasm cache (past ++ more) :=
  fun active path plugin found => loaded_append more (loaded active path plugin found)

theorem swapStores_loaded {lbs : Table String Upstream.LoadBalancer}
    (loaded : AllLoaded build crates.wasm cache past) :
    Keeps (WritesLoaded crates.wasm) (fun _ _ => True) past (Reload.swapStores build config lbs cache) := by
  refine keeps_call_bind.mpr ⟨by rintro _ ⟨⟩, fun _ => keeps_bind.mpr ?_⟩
  unfold Reload.writePlugins
  split
  · rename_i active
    refine ⟨?_, fun _ => ⟨by rintro _ ⟨⟩, fun _ => trivial⟩⟩
    rintro _ ⟨⟩ path plugin found
    exact loaded_append _ (loaded active path plugin found)
  · exact ⟨by rintro _ ⟨⟩, fun _ => trivial⟩

theorem install_loaded (loaded : AllLoaded build crates.wasm cache past) :
    Keeps (WritesLoaded crates.wasm) (fun _ _ => True) past (Reload.install build config cache) := by
  refine keeps_call_bind.mpr ⟨quiet_writes rfl, fun base => keeps_bind.mpr ?_⟩
  refine keeps_mono (fun _ _ may => may) ?_ (keeps_stable (AllLoaded build crates.wasm cache) ?_ ?_
    (spawnProbers_keeps (Health.probeSpecs config) []) (allLoaded_append _ loaded))
  · rintro past handles ⟨loaded, _⟩
    refine keeps_bind.mpr (keeps_mono (fun _ _ may => may) ?_ (swapStores_loaded loaded))
    intro past _ _
    refine keeps_call_bind.mpr ⟨quiet_writes rfl, fun previous => ?_⟩
    refine keeps_mono ?_ (fun _ _ _ => trivial) (abortAll_keeps previous _)
    rintro _ a ⟨handle, rfl⟩
    exact quiet_writes rfl
  · exact fun past a r loaded _ => allLoaded_append _ loaded
  · rintro past a _ ⟨spec, rfl⟩
    exact quiet_writes rfl

end

theorem reloadOnce_loaded (build : Build) (crates : Crates) (configPath : String) (past : History) :
    Keeps (WritesLoaded crates.wasm) (fun _ _ => True) past (Reload.reloadOnce build crates configPath) := by
  refine keeps_call_bind.mpr ⟨quiet_writes rfl, fun _ => keeps_bind.mpr ?_⟩
  refine keeps_mono ?_ ?_ (loadConfig_keeps configPath _)
  · rintro _ a ⟨path, rfl⟩
    exact quiet_writes rfl
  · intro past content _
    cases content with
    | error e => trivial
    | ok config =>
      simp only
      split
      · trivial
      · refine keeps_bind.mpr (keeps_mono ?_ ?_ (compilePlugins_keeps build crates config past))
        · rintro _ a ⟨path, rfl⟩
          exact quiet_writes rfl
        · intro past result compiles
          cases result with
          | error e => trivial
          | ok cache =>
            refine keeps_bind.mpr (keeps_mono (fun _ _ may => may) (fun _ _ _ => trivial) (install_loaded ?_))
            exact fun active path plugin found => ((compiles active).loaded path plugin found).2

theorem watchConfigSignal_loaded (build : Build) (crates : Crates) (configPath : String) (rounds : Nat)
    (past : History) :
    Keeps (WritesLoaded crates.wasm) (fun _ _ => True) past
      (Reload.watchConfigSignal build crates configPath rounds) := by
  induction rounds generalizing past with
  | zero => trivial
  | succ rounds ih =>
    exact keeps_bind.mpr (keeps_mono (fun _ _ may => may) (fun past _ _ => ih past)
      (reloadOnce_loaded build crates configPath past))

theorem reload_loaded (sys : System) :
    Keeps (WritesLoaded sys.crates.wasm) (fun _ _ => True) [] (sys.program .reload) :=
  watchConfigSignal_loaded sys.build sys.crates sys.configPath sys.reloads []

section
variable {sys : System} {s : Store} {w : System.World}

theorem pluginFor_append {log : List (Tid × Event Act.Res)} (more : List (Tid × Event Act.Res)) {path : String}
    {plugin : Plugin} (for_ : PluginFor sys s log path plugin) : PluginFor sys s (log ++ more) path plugin := by
  rcases for_ with initial | loaded
  · exact .inl initial
  · rw [PluginFor, Pool.own_append]
    exact .inr (loaded_append _ loaded)

/-- Every plugin that `plugin_cache` ever holds for a path is one for that path. -/
theorem cached_for {meets : System.World → Tid → Prop} (reaches : sys.Reaches meets s w) :
    ∀ path plugin, w.state.pluginCache.get path = some plugin → PluginFor sys s w.log path plugin := by
  refine Pool.reaches_invariant
    (fun w => ∀ path plugin, w.state.pluginCache.get path = some plugin → PluginFor sys s w.log path plugin)
    (fun path plugin found => .inl found) ?_ reaches
  intro o t w₁ w₂ before cached _ taken path plugin found
  obtain ⟨a, next, r, s', head, done, rfl⟩ := Pool.step_cases taken
  rcases (perform_changes done).pluginCache with same | wrote
  · exact pluginFor_append _ (cached path plugin (same ▸ found))
  · obtain rfl : t = .reload := System.reload_only before head (by rw [wrote]; rfl)
    have contract := System.own_keeps (reload_loaded sys) before
    rw [head] at contract
    refine pluginFor_append _ (.inr ?_)
    exact contract.1 _ wrote path plugin found

/-- A request that reads in step finds a plugin for its route's path. -/
theorem getPlugin_found (active : sys.build.plugins = true) (covered : Covered s.config s.pluginCache)
    (reaches : sys.Reaches (fun w t => readsInStep w t = true) s w) {n : Nat} {path : String} {r : Option Plugin}
    (event : (.request n, ⟨.getPlugin path, r⟩) ∈ w.log) :
    ∃ plugin, r = some plugin ∧ PluginFor sys s w.log path plugin := by
  obtain ⟨before, after, logged⟩ := List.append_of_mem event
  obtain ⟨o, w₁, next, s', reaches₁, rfl, inStep, head, done, may⟩ := System.request_event reaches logged
  obtain ⟨config, route, read, choice, _, guard⟩ := may
  rw [read] at choice
  have listed : path ∈ pluginPaths config :=
    Plugins.mem_pluginPaths.mpr ⟨route, Routing.selectRoute_mem choice, guard⟩
  have current := (config_held reaches₁ read).2
  have found : ∃ plugin, w₁.state.pluginCache.get path = some plugin := by
    obtain ⟨phase, here, outline⟩ := reaches_phase sys (fun _ _ => True) Covered (fun _ _ => trivial)
      (fun _ _ _ compiled => (compiled active).complete) ⟨trivial, covered⟩ reaches₁
    cases phase with
    | settled => exact here.2 path (current ▸ listed)
    | balanced new => exact here.2 path (current ▸ listed)
    | filtered new =>
      obtain ⟨rest, about⟩ := filtered_head outline
      simp only [readsInStep, head, about, decide_eq_true_eq] at inStep
      exact here.2 path inStep
  obtain ⟨plugin, found⟩ := found
  have answered : r = some plugin := (perform_getPlugin done).trans found
  refine ⟨plugin, answered, ?_⟩
  rw [logged]
  exact pluginFor_append _ (cached_for reaches₁ path plugin found)

/-- In every run from covered stores whose reads of `plugin_cache` are in step with
    the reload, nothing is sent for a route with a plugin before the plugin allowed it. -/
theorem guarded_in_step (sys : System) (s : Store) (w : System.World) (active : sys.build.plugins = true)
    (covered : Covered s.config s.pluginCache) (reaches : sys.Reaches (fun w t => readsInStep w t = true) s w) :
    Guarded sys s w := by
  intro before n e after route path logged sent choice guard
  obtain ⟨o, w₁, next, s', reaches₁, log, _, head, _, may⟩ := System.request_event reaches logged
  have serving := may_serving may sent choice
  rcases serving.2 active path guard with missed | ⟨plugin, read, allowed⟩
  · obtain ⟨plugin, found, _⟩ := getPlugin_found active covered reaches₁ (log ▸ Pool.mem_own.mp missed)
    cases found
  · obtain ⟨plugin', same, for_⟩ := getPlugin_found active covered reaches₁ (log ▸ Pool.mem_own.mp read)
    cases same
    exact ⟨plugin, log ▸ for_, Pool.mem_own.mp allowed⟩

end

/-- The cache holds a plugin for exactly the paths that the config names. -/
def Exact (config : Config) (cache : Table String Plugin) : Prop :=
  ∀ path, (∃ plugin, cache.get path = some plugin) ↔ path ∈ pluginPaths config

/-- A read that is out of step finds nothing. -/
theorem out_of_step_misses {sys : System} {meets : System.World → Tid → Prop} {s : Store} {w : System.World}
    (active : sys.build.plugins = true) (exactly : Exact s.config s.pluginCache) (reaches : sys.Reaches meets s w)
    {config : Config} {rest : Unit → Program Unit} (about : w.threads .reload = .act (.writeConfig config) rest)
    {path : String} (unnamed : path ∉ pluginPaths config) : w.state.pluginCache.get path = none := by
  obtain ⟨phase, here, outline⟩ := reaches_phase sys (fun _ _ => True) Exact (fun _ _ => trivial)
    (fun _ _ _ compiled path => ⟨fun ⟨plugin, found⟩ => ((compiled active).loaded path plugin found).1,
      (compiled active).complete path⟩) ⟨trivial, exactly⟩ reaches
  rw [about] at outline
  cases phase with
  | settled => exact absurd rfl (outline.1.2 config)
  | balanced new =>
    have writes := outline.1
    simp only [Phase.may, active, if_true] at writes
    obtain ⟨cache, other⟩ := writes
    cases other
  | filtered new =>
    cases outline.1
    by_contra found
    obtain ⟨plugin, found⟩ := Option.ne_none_iff_exists'.mp found
    exact unnamed ((here.2 path).mp ⟨plugin, found⟩)

/-! ## A reload that takes the plugin from its route -/

/-- The document of a config whose only route names no plugin. -/
def unguardedDocument : String :=
  "[[listener]]\naddr = \"0.0.0.0:8080\"\nprotocol = \"http\"\n" ++
    "[[route]]\nname = \"api\"\n[[route.upstream]]\naddr = \"http://10.0.0.1:80\"\n"

def unguardedConfig : Config := Samples.config [Samples.route "api" "http://10.0.0.1:80"]

/-- One request and one reload, which installs the config without the plugin. -/
def unguarding : System where
  build := Samples.build
  crates := Samples.crates unguardedDocument unguardedConfig
  configPath := "torana.toml"
  reloads := 1
  rounds _ := 0
  conn _ := Samples.conn
  req _ := Samples.get Multimap.empty

/-- The stores of the config with the plugin, which was compiled from these bytes. -/
def guardedStore (bytes : List UInt8) : Store :=
  Samples.store (Samples.config [Samples.guardedRoute]) (Table.empty.insert "filter.wasm" ⟨bytes⟩)

theorem guardedStore_covered (bytes : List UInt8) :
    Covered (guardedStore bytes).config (guardedStore bytes).pluginCache := by
  intro path named
  obtain rfl : path = "filter.wasm" := by
    simpa [guardedStore, Samples.store, Samples.config, Samples.guardedRoute, pluginPaths] using named
  exact ⟨⟨bytes⟩, Table.get_insert_self _ _ _⟩

def reloading : Outside := { Samples.outside with text := .ok unguardedDocument }

/-- The request reads its plugin before the reload replaces `plugin_cache`. -/
def orderly : List (Tid × Outside) :=
  List.replicate 4 (.reload, reloading) ++ List.replicate 9 (.request 0, Samples.outside) ++
    List.replicate 3 (.reload, reloading)

theorem guarded_in_step_orderly :
    ∃ w, unguarding.Reaches (fun w t => readsInStep w t = true) (guardedStore [0]) w ∧
      w.log.any (fun e => sends e.2.act) = true ∧ Guarded unguarding (guardedStore [0]) w := by
  obtain ⟨w, reaches, sent⟩ := System.reaches_of_run unguarding readsInStep orderly (guardedStore [0])
    (fun w => w.log.any fun e => sends e.2.act) (by decide +kernel)
  exact ⟨w, reaches, sent, guarded_in_step unguarding (guardedStore [0]) w rfl (guardedStore_covered [0]) reaches⟩

/-- The reload has replaced `lb_cache` and `plugin_cache`, but not `config_handle`,
    when the request reads. -/
def overtaking : List (Tid × Outside) :=
  List.replicate 5 (.reload, reloading) ++ List.replicate 7 (.request 0, Samples.outside)

/-- The event sends request 0 for a route with a plugin, and nothing was evaluated before. -/
def unfiltered (before : List (Tid × Event Act.Res)) : Tid × Event Act.Res → Bool
  | (.request 0, e) =>
    sends e.act && selected (unguarding.req 0) (Pool.own (.request 0) before) = some Samples.guardedRoute &&
      before.all fun e => match e.2 with
        | ⟨.evaluate _ _ _, _⟩ => false
        | _ => true
  | _ => false

/-- A plugin that denies every request is skipped while a reload takes it from its route. -/
theorem overtaken_unguarded :
    ∃ w, unguarding.Reaches (fun _ _ => True) (guardedStore []) w ∧ unguarding.build.plugins = true ∧
      Covered (guardedStore []).config (guardedStore []).pluginCache ∧ ¬ Guarded unguarding (guardedStore []) w := by
  obtain ⟨w, reaches, shown⟩ := System.reaches_of_run unguarding (fun _ _ => true) overtaking (guardedStore [])
    (fun w => Pool.somewhere unfiltered [] w.log) (by decide +kernel)
  refine ⟨w, Pool.reaches_mono (fun _ _ _ => trivial) reaches, rfl, guardedStore_covered [], fun guarded => ?_⟩
  obtain ⟨before, ⟨t, e⟩, after, logged, found⟩ := Pool.somewhere_split shown
  rw [List.nil_append] at found
  unfold unfiltered at found
  split at found
  · rename_i e' same
    cases same
    simp only [Bool.and_eq_true, decide_eq_true_eq] at found
    obtain ⟨⟨sent, choice⟩, unread⟩ := found
    obtain ⟨plugin, _, allowed⟩ := guarded before 0 e after Samples.guardedRoute "filter.wasm" logged sent choice rfl
    exact absurd (List.all_eq_true.mp unread _ allowed) (by simp)
  · cases found

end Guarding
end Torana
