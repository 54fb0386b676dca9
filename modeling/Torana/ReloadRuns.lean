import Torana.Rounds
import Torana.Samples

/-!
Whole histories of reloads. `Derived` says that every store and every prober
derives from one config and the plugin files as they were when it was accepted;
each SIGHUP either leaves all of them as they are or makes them derive from what it
offers, so that they always derive from the last offer that was accepted.
-/
namespace Torana
open Config (RouteConfig Build)
open Plugins (Plugin)
open Upstream (buildLbMap)
open Health (probeSpecs)

namespace ReloadRuns
open Rounds

/-! ## Probers -/

/-- The specs of the probers that run and have not been aborted. -/
def probers (s : Store) : List ProbeSpec := (s.tasks.filter fun task => task.status = .running).map (·.spec)

/-- The addresses that health-checked routes list, one for each upstream entry. -/
def checkedUpstreams (config : Config) : List String :=
  config.route.flatMap fun route => if route.healthCheck.isSome then route.upstream.map (·.addr) else []

theorem probeSpecs_addr (config : Config) : (probeSpecs config).map (·.addr) = checkedUpstreams config := by
  unfold probeSpecs checkedUpstreams
  rw [List.map_flatMap]
  refine List.flatMap_congr fun route _ => ?_
  cases route.healthCheck <;> simp

/-- The probers of the specs run, no others do, and the handles are theirs. -/
def Probing (specs : List ProbeSpec) (s : Store) : Prop :=
  ∃ old, (∀ task ∈ old, task.status ≠ .running) ∧ s.tasks = old ++ specs.map running ∧
    s.handles = List.range' old.length specs.length

/-- Behind tasks that have ended only the new ones run. -/
theorem stretch_probers {specs : List ProbeSpec} {old : List Task} {s : Store}
    (ended : ∀ task ∈ old, task.status ≠ .running) (tasks : s.tasks = old ++ specs.map running) :
    probers s = specs := by
  have idle : old.filter (fun task => task.status = .running) = [] := by
    rw [List.filter_eq_nil_iff]
    intro task member
    simpa using ended task member
  have all : (specs.map running).filter (fun task => task.status = .running) = specs.map running := by
    rw [List.filter_eq_self]
    intro task member
    obtain ⟨spec, _, rfl⟩ := List.mem_map.mp member
    rfl
  rw [probers, tasks, List.filter_append, idle, all, List.nil_append, List.map_map]
  exact List.map_id specs

theorem probing_probers {specs : List ProbeSpec} {s : Store} (probing : Probing specs s) : probers s = specs := by
  obtain ⟨old, ended, tasks, _⟩ := probing
  exact stretch_probers ended tasks

def aborted (spec : ProbeSpec) : Task := ⟨spec, .aborted⟩

theorem abortTask_at (front : List Task) (spec : ProbeSpec) (back : List Task) :
    abortTask (front ++ running spec :: back) front.length = front ++ aborted spec :: back := by
  have there : (front ++ running spec :: back)[front.length]? = some (running spec) := by simp
  have changed : (front ++ running spec :: back).modify front.length (fun task => { task with status := .aborted }) =
      front ++ aborted spec :: back := by
    induction front with
    | nil => rfl
    | cons first rest ih => simpa using ih (by simp)
  unfold abortTask
  rw [there, changed]
  rfl

/-- Aborting the handles of a stretch of running tasks aborts exactly these. -/
theorem abort_stretch (specs : List ProbeSpec) (front back : List Task) :
    (List.range' front.length specs.length).foldl abortTask (front ++ specs.map running ++ back) =
      front ++ specs.map aborted ++ back := by
  induction specs generalizing front with
  | nil => rfl
  | cons spec rest ih =>
    have shape : front ++ (spec :: rest).map running ++ back = front ++ running spec :: (rest.map running ++ back) := by
      simp
    rw [List.length_cons, List.range'_succ, List.foldl_cons, shape, abortTask_at]
    have later := ih (front ++ [aborted spec])
    simpa using later

/-! ## Stores -/

section
variable (build : Build) (crates : Crates)

/-- Every store and every prober derives from the config, the plugins from these files. -/
structure Derived (files : String → Except String (List UInt8)) (config : Config) (s : Store) : Prop where
  current : s.config = config
  balancers : ∃ base, s.lbCache = buildLbMap base config
  plugins : build.plugins = true → PluginsOf crates.wasm files config s.pluginCache
  probers : Probing (probeSpecs config) s
  free : s.guards = []

variable {build crates} {files : String → Except String (List UInt8)}

theorem installed_derived {o : Outside} {old config : Config} {plugins : Table String Plugin} {s : Store}
    (derived : Derived build crates files old s)
    (loaded : build.plugins = true → PluginsOf crates.wasm o.file config plugins) :
    Derived build crates o.file config (installed build config plugins s) := by
  obtain ⟨earlier, ended, tasks, handles⟩ := derived.probers
  have retired : s.handles.foldl abortTask (s.tasks ++ (probeSpecs config).map running) =
      (earlier ++ (probeSpecs old).map aborted) ++ (probeSpecs config).map running := by
    rw [handles, tasks, abort_stretch]
  refine ⟨rfl, ⟨s.nextCounter, rfl⟩, fun active => ?_, ⟨earlier ++ (probeSpecs old).map aborted, ?_, retired, ?_⟩,
    derived.free⟩
  · have cached : (installed build config plugins s).pluginCache = plugins := by
      simp [installed, swapped, active]
    rw [cached]
    exact loaded active
  · intro task member
    rcases List.mem_append.mp member with before | retiree
    · exact ended task before
    · obtain ⟨spec, _, rfl⟩ := List.mem_map.mp retiree
      simp [aborted]
  · simp [installed, tasks]

theorem started_derived {config : Config} {plugins : Table String Plugin}
    (loaded : build.plugins = true → PluginsOf crates.wasm files config plugins) :
    Derived build crates files config (started build config plugins) := by
  refine ⟨rfl, ⟨0, rfl⟩, fun active => ?_, ⟨[], by simp, rfl, rfl⟩, rfl⟩
  have cached : (started build config plugins).pluginCache = plugins := by
    simp [started, swapped, active]
  rw [cached]
  exact loaded active

/-- What one SIGHUP does to stores that derive from one config. -/
theorem round_derived {o : Outside} {config : Config} {s s' : Store} {result : Except String Config}
    (derived : Derived build crates files config s) (round : Round build crates o s result s') :
    (s' = s ∧ ∀ offered, ¬ Good build crates o offered) ∨
      ∃ offered, Good build crates o offered ∧ Derived build crates o.file offered s' := by
  cases round with
  | rejected e bad => exact .inl ⟨rfl, bad⟩
  | accepted offered plugins good loaded => exact .inr ⟨offered, good, installed_derived derived loaded⟩

end

/-- After any sequence of SIGHUPs, each against its own content of the files, every
    store and every prober derives from the last config that was accepted, its plugins
    from the files at that time, and a rejected SIGHUP changed nothing. -/
theorem reload_all_or_nothing (build : Build) (crates : Crates) (configPath : String) (first : Config)
    (files : String → Except String (List UInt8)) (s : Store) (derived : Derived build crates files first s)
    (os : List Outside) :
    ∃ config loaded s', signals build crates configPath os s = some s' ∧
      Current build crates first files os config loaded ∧ Derived build crates loaded config s' ∧
      probers s' = probeSpecs config ∧ (probers s').map (·.addr) = checkedUpstreams config ∧
      ∀ o, (∀ offered, ¬ Good build crates o offered) →
        signals build crates configPath (os ++ [o]) s = some s' := by
  have round : ∀ o s₁ config loaded, Derived build crates loaded config s₁ → ∃ s₂,
      signals build crates configPath [o] s₁ = some s₂ ∧ ((s₂ = s₁ ∧ ∀ offered, ¬ Good build crates o offered) ∨
        ∃ offered, Good build crates o offered ∧ Derived build crates o.file offered s₂) := by
    intro o s₁ config loaded derived
    obtain ⟨result, s₂, done, round⟩ := alone_reloadOnce build crates (o := o) configPath derived.free
    exact ⟨s₂, by simp [signals, done], round_derived derived round⟩
  have reached : ∃ config loaded s', signals build crates configPath os s = some s' ∧
      Current build crates first files os config loaded ∧ Derived build crates loaded config s' := by
    induction os using List.reverseRecOn with
    | nil => exact ⟨first, files, s, rfl, .start, derived⟩
    | append_singleton os o ih =>
      obtain ⟨config, loaded, s₁, ends, current, derived⟩ := ih
      obtain ⟨s₂, done, ⟨rfl, bad⟩ | ⟨offered, good, derived'⟩⟩ := round o s₁ config loaded derived
      · exact ⟨config, loaded, s₂, by rw [signals_append, ends]; exact done, .kept current bad, derived⟩
      · exact ⟨offered, o.file, s₂, by rw [signals_append, ends]; exact done, .replaced current good, derived'⟩
  obtain ⟨config, loaded, s', ends, current, derived'⟩ := reached
  have specs := probing_probers derived'.probers
  refine ⟨config, loaded, s', ends, current, derived', specs, by rw [specs, probeSpecs_addr], fun o bad => ?_⟩
  obtain ⟨s₂, done, ⟨rfl, _⟩ | ⟨offered, good, _⟩⟩ := round o s' config loaded derived'
  · rw [signals_append, ends]
    exact done
  · exact absurd good (bad offered)

/-! ## A SIGHUP that is rejected and one that is accepted -/

/-- A route whose upstream is probed. -/
def checkedRoute : RouteConfig :=
  { Samples.route "api" "http://10.0.0.1:80" with healthCheck := some ⟨some "/up", none, none⟩ }

def checkedDocument : String :=
  "[[listener]]\naddr = \"0.0.0.0:8080\"\nprotocol = \"http\"\n" ++
    "[[route]]\nname = \"api\"\nhealth_check = \x7b path = \"/up\" \x7d\n" ++
    "[[route.upstream]]\naddr = \"http://10.0.0.1:80\"\n"

def checkedConfig : Config := Samples.config [checkedRoute]

def checkedCrates : Crates := Samples.crates checkedDocument checkedConfig

/-- The config file cannot be read at the first signal and holds the document at the second. -/
def offers : List Outside := [Samples.outside, { Samples.outside with text := .ok checkedDocument }]

/-- The stores of a route without a health check. -/
def uncheckedStore : Store :=
  started Samples.build (Samples.config [Samples.route "api" "http://10.0.0.1:80"]) Table.empty

theorem reload_all_or_nothing_offers :
    Derived Samples.build checkedCrates Samples.outside.file
      (Samples.config [Samples.route "api" "http://10.0.0.1:80"]) uncheckedStore ∧
    ∃ config loaded s', signals Samples.build checkedCrates "torana.toml" offers uncheckedStore = some s' ∧
      Current Samples.build checkedCrates (Samples.config [Samples.route "api" "http://10.0.0.1:80"])
        Samples.outside.file offers config loaded ∧
      Derived Samples.build checkedCrates loaded config s' ∧ probers s' = probeSpecs config ∧
      (probers s').map (·.addr) = checkedUpstreams config ∧
      ∀ o, (∀ offered, ¬ Good Samples.build checkedCrates o offered) →
        signals Samples.build checkedCrates "torana.toml" (offers ++ [o]) uncheckedStore = some s' := by
  have derived : Derived Samples.build checkedCrates Samples.outside.file
      (Samples.config [Samples.route "api" "http://10.0.0.1:80"]) uncheckedStore :=
    started_derived fun _ => ⟨by simp [Samples.config, Samples.route, Plugins.pluginPaths],
      fun path plugin found => nomatch found⟩
  exact ⟨derived, reload_all_or_nothing Samples.build checkedCrates "torana.toml" _ _ uncheckedStore derived offers⟩

end ReloadRuns
end Torana
