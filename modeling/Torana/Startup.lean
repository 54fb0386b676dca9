import Torana.Guarding
import Torana.Rounds

/-!
Plugins over the life of the engine. A reload installs a config only with all of its
plugins, but `ProxyEngine::new` installs the first config even when a plugin does
not load, and then caches none at all. The routes stay unfiltered until the first
config is accepted by a reload.
-/
namespace Torana
open Http
open Config (RouteConfig Build)
open Plugins (pluginPaths)
open Prog (Runs keeps_event)
open Pool (alone)

namespace Startup
open Handling Guarding Rounds

/-- What the history read of the shared stores is what they hold. -/
def ReadsOf (s : Store) (trace : History) : Prop :=
  (∀ config, ⟨.readConfig, config⟩ ∈ trace → config = s.config) ∧
    ∀ path plugin, ⟨.getPlugin path, plugin⟩ ∈ trace → plugin = s.pluginCache.get path

/-- No request that is handled against these stores is sent for a route with a plugin
    before the plugin allowed it. -/
def NoBypass (build : Build) (crates : Crates) (s : Store) : Prop :=
  ∀ conn req trace q, Runs (Server.handle build crates conn req) trace q → ReadsOf s trace →
    ∀ before e after route path, trace = before ++ e :: after → sends e.act = true →
      selected req before = some route → route.plugin = some path →
      ∃ plugin, s.pluginCache.get path = some plugin ∧
        ⟨.evaluate plugin req.parts.method.asStr req.parts.uri.path, .allow⟩ ∈ before

theorem selected_listed {req : Request Incoming} {s : Store} {before : History} {route : RouteConfig}
    (reads : ∀ config, ⟨.readConfig, config⟩ ∈ before → config = s.config)
    (choice : selected req before = some route) : route ∈ s.config.route := by
  obtain ⟨config, read, chosen⟩ := Option.bind_eq_some_iff.mp choice
  rw [← reads config (configOf_mem read)]
  exact Routing.selectRoute_mem chosen

/-- Covered stores fail closed. -/
theorem covered_noBypass {build : Build} {crates : Crates} {s : Store} (active : build.plugins = true)
    (covered : Covered s.config s.pluginCache) : NoBypass build crates s := by
  rintro conn req trace q run ⟨configs, plugins⟩ before e after route path rfl sent choice guard
  have serving := may_serving (keeps_event handle_keeps run) sent choice
  have listed : path ∈ pluginPaths s.config := by
    have member := selected_listed (fun config read => configs config (List.mem_append_left _ read)) choice
    exact Plugins.mem_pluginPaths.mpr ⟨route, member, guard⟩
  obtain ⟨plugin, cached⟩ := covered path listed
  have answer : ∀ found, ⟨.getPlugin path, found⟩ ∈ before → found = some plugin := fun found read =>
    (plugins path found (List.mem_append_left _ read)).trans cached
  rcases serving.2 active path guard with missed | ⟨plugin', read, allowed⟩
  · cases answer none missed
  · cases answer (some plugin') read
    exact ⟨plugin, cached, allowed⟩

section
variable {build : Build} {crates : Crates} {configPath : String}

/-- One SIGHUP leaves the stores as they are or covers the config that it installs. -/
theorem round_covered {o : Outside} {s s' : Store} {result : Except String Config} (active : build.plugins = true)
    (free : s.guards = []) (round : Round build crates o s result s') :
    s'.guards = [] ∧ ((s' = s ∧ ∀ config, ¬ Good build crates o config) ∨
      (∃ config, Good build crates o config) ∧ Covered s'.config s'.pluginCache) := by
  cases round with
  | rejected e bad => exact ⟨free, .inl ⟨rfl, bad⟩⟩
  | accepted config plugins good loaded =>
    refine ⟨free, .inr ⟨⟨config, good⟩, ?_⟩⟩
    have cached : (installed build config plugins s).pluginCache = plugins := by
      simp [installed, swapped, active]
    rw [cached]
    exact (loaded active).complete

/-- Any number of SIGHUPs leaves the stores as they are, if none offers a good config,
    or covers the config that the last good one installed. -/
theorem signals_covered {os : List Outside} {s s' : Store} (active : build.plugins = true) (free : s.guards = [])
    (ends : signals build crates configPath os s = some s') :
    (s' = s ∧ ∀ o ∈ os, ∀ config, ¬ Good build crates o config) ∨
      (∃ o ∈ os, ∃ config, Good build crates o config) ∧ Covered s'.config s'.pluginCache := by
  induction os generalizing s with
  | nil =>
    cases ends
    exact .inl ⟨rfl, by simp⟩
  | cons o later ih =>
    obtain ⟨result, s₁, done, round⟩ := alone_reloadOnce build crates (o := o) configPath free
    have behind : signals build crates configPath later s₁ = some s' := by
      simpa only [signals, done, Option.bind_some] using ends
    obtain ⟨free₁, ⟨rfl, bad⟩ | ⟨⟨config, good⟩, covered⟩⟩ := round_covered active free round
    · rcases ih free behind with ⟨same, allBad⟩ | ⟨⟨o', member, good⟩, covered⟩
      · exact .inl ⟨same, List.forall_mem_cons.mpr ⟨bad, allBad⟩⟩
      · exact .inr ⟨⟨o', List.mem_cons_of_mem _ member, good⟩, covered⟩
    · rcases ih free₁ behind with ⟨rfl, _⟩ | ⟨_, covered⟩
      · exact .inr ⟨⟨o, List.mem_cons_self, config, good⟩, covered⟩
      · exact .inr ⟨⟨o, List.mem_cons_self, config, good⟩, covered⟩

/-- What `ProxyEngine::new` leaves is covered exactly when every plugin loads. -/
theorem newEngine_covered {o : Outside} {config : Config} {s : Store} (active : build.plugins = true)
    (built : alone (perform crates) o .main (Reload.newEngine build crates config) Store.initial = some ((), s)) :
    s.guards = [] ∧ (Covered s.config s.pluginCache ↔ AllLoad crates.wasm o.file config) := by
  obtain ⟨plugins, ends, cached⟩ := alone_newEngine build crates (o := o) config
  cases built.symm.trans ends
  have stored : (swapped build config (Upstream.buildLbMap 0 config) plugins
      (counted config Store.initial)).pluginCache = plugins := by
    simp [swapped, active]
  refine ⟨rfl, ?_⟩
  rw [stored]
  rcases cached active with complete | ⟨rfl, fails⟩
  · exact ⟨fun _ => pluginsOf_allLoad complete, fun _ => complete.complete⟩
  · refine ⟨fun covered path named => ?_, fun all => absurd all fails⟩
    obtain ⟨plugin, found⟩ := covered path named
    cases found

end

/-- Over the life of an engine every guarded route has its plugin, and is never served
    without its leave, exactly when every plugin of the first config loaded at the
    start or a reload has accepted a config since. -/
theorem covered_iff (build : Build) (crates : Crates) (configPath : String) (config : Config) (o : Outside)
    (os : List Outside) (s₀ s : Store) (active : build.plugins = true)
    (built : alone (perform crates) o .main (Reload.newEngine build crates config) Store.initial = some ((), s₀))
    (ends : signals build crates configPath os s₀ = some s) :
    (Covered s.config s.pluginCache ∧ NoBypass build crates s) ↔
      AllLoad crates.wasm o.file config ∨ ∃ o' ∈ os, ∃ config', Good build crates o' config' := by
  have iff : Covered s.config s.pluginCache ↔
      AllLoad crates.wasm o.file config ∨ ∃ o' ∈ os, ∃ config', Good build crates o' config' := by
    obtain ⟨free, start⟩ := newEngine_covered active built
    rcases signals_covered active free ends with ⟨rfl, bad⟩ | ⟨good, covered⟩
    · rw [start]
      exact ⟨.inl, fun either => either.resolve_right fun ⟨o', member, config', good⟩ => bad o' member config' good⟩
    · exact ⟨fun _ => .inr good, fun _ => covered⟩
  rw [← iff]
  exact ⟨And.left, fun covered => ⟨covered, covered_noBypass active covered⟩⟩

/-! ## A plugin that is not there -/

/-- A config with a guarded route. -/
def guardedConfig : Config := Samples.config [Samples.guardedRoute]

def guardedDocument : String :=
  "[[listener]]\naddr = \"0.0.0.0:8080\"\nprotocol = \"http\"\n" ++
    "[[route]]\nname = \"api\"\nplugin = \"filter.wasm\"\n[[route.upstream]]\naddr = \"http://10.0.0.1:80\"\n"

def guardedCrates : Crates := Samples.crates guardedDocument guardedConfig

/-- The stores that `ProxyEngine::new` makes of it while the plugin's file is missing. -/
def unfilteredStore : Store :=
  swapped Samples.build guardedConfig (Upstream.buildLbMap 0 guardedConfig) Table.empty
    (counted guardedConfig Store.initial)

theorem newEngine_unfiltered :
    alone (perform guardedCrates) Samples.outside .main (Reload.newEngine Samples.build guardedCrates guardedConfig)
      Store.initial = some ((), unfilteredStore) := by
  obtain ⟨plugins, ends, cached⟩ := alone_newEngine Samples.build guardedCrates (o := Samples.outside) guardedConfig
  rcases cached rfl with complete | ⟨rfl, _⟩
  · obtain ⟨plugin, made⟩ := pluginsOf_allLoad complete "filter.wasm" (by decide)
    cases Plugins.load_bytes made
  · exact ends

/-- The file is there when the second SIGHUP comes. -/
def repaired : Outside :=
  { Samples.outside with text := .ok guardedDocument, file := fun _ => .ok [0] }

theorem repaired_good : Good Samples.build guardedCrates repaired guardedConfig := by
  refine ⟨⟨guardedDocument, rfl, ?_⟩, by decide +kernel, fun _ path named => ⟨⟨[0]⟩, rfl⟩⟩
  simp [guardedCrates, Samples.crates]

theorem covered_iff_repaired :
    ∃ s, signals Samples.build guardedCrates "torana.toml" [Samples.outside, repaired] unfilteredStore = some s ∧
      Covered s.config s.pluginCache ∧ NoBypass Samples.build guardedCrates s := by
  obtain ⟨_, s₁, first, round⟩ := alone_reloadOnce Samples.build guardedCrates (o := Samples.outside)
    "torana.toml" (s := unfilteredStore) rfl
  obtain ⟨free, _⟩ := round_covered rfl rfl round
  obtain ⟨_, s₂, second, _⟩ := alone_reloadOnce Samples.build guardedCrates (o := repaired) "torana.toml" free
  have ends : signals Samples.build guardedCrates "torana.toml" [Samples.outside, repaired] unfilteredStore =
      some s₂ := by
    simp only [signals, first, second, Option.bind_some]
  refine ⟨s₂, ends, (covered_iff Samples.build guardedCrates "torana.toml" guardedConfig Samples.outside
    [Samples.outside, repaired] unfilteredStore s₂ rfl newEngine_unfiltered ends).mpr ?_⟩
  exact .inr ⟨repaired, by simp, guardedConfig, repaired_good⟩

/-- What a request performs against the unfiltered stores. -/
def bypassing : History × Program (Response ProxyBody) :=
  Prog.follow (Samples.answers guardedCrates unfilteredStore)
    (Server.handle Samples.build guardedCrates Samples.conn (Samples.get Multimap.empty))

theorem bypassing_reads : ReadsOf unfilteredStore bypassing.1 := by
  constructor
  · intro config read
    have answered : Samples.answers guardedCrates unfilteredStore .readConfig = some config := Prog.follow_answered read
    obtain ⟨⟨_, s⟩, done, rfl⟩ := Option.map_eq_some_iff.mp answered
    exact (perform_readConfig done).1
  · intro path plugin read
    have answered : Samples.answers guardedCrates unfilteredStore (.getPlugin path) = some plugin :=
      Prog.follow_answered read
    obtain ⟨⟨_, s⟩, done, rfl⟩ := Option.map_eq_some_iff.mp answered
    exact perform_getPlugin done

/-- The event sends the request for the guarded route. -/
def sendsGuarded (before : History) (e : Event Act.Res) : Bool :=
  sends e.act && selected (Samples.get Multimap.empty) before = some Samples.guardedRoute

/-- A config is accepted, its plugin does not load at the start, and its route is served
    without it. -/
theorem newEngine_bypassed :
    guardedConfig.validate Samples.build guardedCrates.parseUri = .ok () ∧
      alone (perform guardedCrates) Samples.outside .main (Reload.newEngine Samples.build guardedCrates guardedConfig)
        Store.initial = some ((), unfilteredStore) ∧
      ¬ Covered unfilteredStore.config unfilteredStore.pluginCache ∧
      ¬ NoBypass Samples.build guardedCrates unfilteredStore := by
  refine ⟨by decide +kernel, newEngine_unfiltered, fun covered => ?_, fun noBypass => ?_⟩
  · obtain ⟨plugin, found⟩ := covered "filter.wasm" (by decide)
    cases found
  · obtain ⟨before, e, after, split, found⟩ := Pool.somewhere_split
      (show Pool.somewhere sendsGuarded [] bypassing.1 = true by decide +kernel)
    simp only [List.nil_append, sendsGuarded, Bool.and_eq_true, decide_eq_true_eq] at found
    obtain ⟨sent, choice⟩ := found
    obtain ⟨plugin, cached, _⟩ := noBypass Samples.conn _ _ _ (Prog.runs_follow _ _) bypassing_reads before e after
      Samples.guardedRoute "filter.wasm" split sent choice rfl
    cases cached

end Startup
end Torana
