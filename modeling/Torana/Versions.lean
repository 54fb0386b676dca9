import Torana.Guarding
import Torana.Lockstep
import Torana.Registers

/-!
The versions of the stores while reloads and requests interleave. Every accepted
reload makes one generation of balancers, plugins and config and writes them in
this order; a request reads the config, its plugin and its balancers in the
opposite order. So whatever it reads never comes from an older generation than
what it read before, and the guard of the config keeps the plugin at most one
generation ahead.
-/
namespace Torana
open Http
open Config (Build)
open Plugins (Plugin pluginPaths)
open Upstream (LoadBalancer buildLbMap)
open Prog (Keeps keeps_bind keeps_call_bind keeps_mono keeps_invariant)
open Registers (Register writes version)

namespace Versions
open Handling Installing

/-! ## Generations -/

/-- What one accepted config puts into the three stores. -/
structure Generation where
  config : Config
  lbs : Table String LoadBalancer
  plugins : Table String Plugin

/-- How many stores a build has. -/
def stages (build : Build) : Nat := if build.plugins then 3 else 2

def Generation.writes (build : Build) (g : Generation) : List Act :=
  .writeLbCache g.lbs :: ((if build.plugins then [.writePluginCache g.plugins] else []) ++ [.writeConfig g.config])

/-- The actions of a history that replaced one of the stores. -/
def replacements (past : History) : List Act := (past.map (·.act)).filter replaces

section
variable (build : Build) (crates : Crates) (configPath : String)

/-- The config was read, parsed and validated, and the rest derives from it. -/
structure Accepted (past : History) (g : Generation) : Prop where
  read : ∃ content, ⟨.readToString configPath, .ok content⟩ ∈ past ∧ crates.parseToml content = .ok g.config
  valid : g.config.validate build crates.parseUri = .ok ()
  balancers : ∃ base, g.lbs = buildLbMap base g.config
  plugins : build.plugins = true → Compiled crates.wasm past (pluginPaths g.config) g.plugins

/-- The generations so far were accepted, and of their writes only `rest` is left. -/
structure Position (past : History) (gens : List Generation) (rest : List Act) : Prop where
  accepted : ∀ g ∈ gens, Accepted build crates configPath past g
  written : gens.flatMap (·.writes build) = replacements past ++ rest

/-- What the reload may do: write what comes next. -/
def MayWrite (past : History) (a : Act) : Prop :=
  replaces a = true → ∃ gens rest, Position build crates configPath past gens (a :: rest) ∧ rest.length < stages build

end

section
variable {build : Build} {crates : Crates} {configPath : String} {past : History} {g : Generation}
  {gens : List Generation} {rest : List Act}

theorem writes_length : (g.writes build).length = stages build := by
  unfold Generation.writes stages
  split <;> rfl

theorem compiled_append (more : History) {wasm : Plugins.Wasmtime} {paths : List String}
    {cache : Table String Plugin} (compiled : Compiled wasm past paths cache) :
    Compiled wasm (past ++ more) paths cache :=
  ⟨compiled.complete, fun path plugin found => ⟨(compiled.loaded path plugin found).1,
    loaded_append more (compiled.loaded path plugin found).2⟩⟩

theorem accepted_append (more : History) (accepted : Accepted build crates configPath past g) :
    Accepted build crates configPath (past ++ more) g := by
  obtain ⟨content, read, parsed⟩ := accepted.read
  exact ⟨⟨content, List.mem_append_left _ read, parsed⟩, accepted.valid, accepted.balancers,
    fun active => compiled_append more (accepted.plugins active)⟩

theorem replacements_append (before after : History) :
    replacements (before ++ after) = replacements before ++ replacements after := by
  simp [replacements]

theorem position_quiet {a : Act} {r : a.Res} (quiet : replaces a = false)
    (position : Position build crates configPath past gens rest) :
    Position build crates configPath (past ++ [⟨a, r⟩]) gens rest := by
  refine ⟨fun g member => accepted_append _ (position.accepted g member), ?_⟩
  have unreplaced : replacements [⟨a, r⟩] = [] := by simp [replacements, quiet]
  rw [replacements_append, unreplaced, List.append_nil]
  exact position.written

theorem position_write {a : Act} {r : a.Res} (write : replaces a = true)
    (position : Position build crates configPath past gens (a :: rest)) :
    Position build crates configPath (past ++ [⟨a, r⟩]) gens rest := by
  refine ⟨fun g member => accepted_append _ (position.accepted g member), ?_⟩
  have one : replacements [⟨a, r⟩] = [a] := by simp [replacements, write]
  rw [replacements_append, one, List.append_assoc, List.singleton_append]
  exact position.written

/-- A new generation is about to be written. -/
theorem position_next (position : Position build crates configPath past gens [])
    (accepted : Accepted build crates configPath past g) :
    Position build crates configPath past (gens ++ [g]) (g.writes build) := by
  refine ⟨fun g' member => ?_, ?_⟩
  · rcases List.mem_append.mp member with earlier | last
    · exact position.accepted g' earlier
    · obtain rfl := List.mem_singleton.mp last
      exact accepted
  · rw [List.flatMap_append, position.written, List.append_nil]
    simp

theorem mayWrite_quiet {a : Act} (quiet : replaces a = false) : MayWrite build crates configPath past a := by
  intro write
  rw [quiet] at write
  cases write

/-! ## The writes of a reload -/

theorem swapStores_writes (position : Position build crates configPath past gens [])
    (accepted : Accepted build crates configPath past g) :
    Keeps (MayWrite build crates configPath)
      (fun past _ => Position build crates configPath past (gens ++ [g]) []) past
      (Reload.swapStores build g.config g.lbs g.plugins) := by
  have next := position_next position accepted
  unfold Reload.swapStores Reload.writePlugins
  unfold Generation.writes at next
  by_cases active : build.plugins = true
  · simp only [active, if_true, List.singleton_append] at next ⊢
    have width : stages build = 3 := by simp [stages, active]
    have second := fun r => position_write (r := r) rfl next
    have third := fun r r' => position_write (r := r') rfl (second r)
    refine keeps_call_bind.mpr ⟨fun _ => ⟨_, _, next, by simp [width]⟩, fun r => ?_⟩
    refine keeps_call_bind.mpr ⟨fun _ => ⟨_, _, second r, by simp [width]⟩, fun r' => ?_⟩
    exact ⟨fun _ => ⟨_, _, third r r', by simp [width]⟩, fun r'' => position_write rfl (third r r')⟩
  · simp only [active, Bool.false_eq_true, if_false, List.nil_append] at next ⊢
    have width : stages build = 2 := by simp [stages, active]
    have second := fun r => position_write (r := r) rfl next
    refine keeps_call_bind.mpr ⟨fun _ => ⟨_, _, next, by simp [width]⟩, fun r => ?_⟩
    exact ⟨fun _ => ⟨_, _, second r, by simp [width]⟩, fun r' => position_write rfl (second r)⟩

/-- Actions that write nothing leave the position, and whatever else more history leaves. -/
theorem position_stable {α : Type} {allowed : Act → Prop} {fin : History → α → Prop} {p : Program α}
    (quiet : ∀ a, allowed a → replaces a = false) (inv : History → Prop)
    (more : ∀ past e, inv past → inv (past ++ [e])) (keeps : Keeps (fun _ => allowed) fin past p)
    (position : Position build crates configPath past gens []) (here : inv past) :
    Keeps (MayWrite build crates configPath)
      (fun past value => (Position build crates configPath past gens [] ∧ inv past) ∧ fin past value) past p :=
  keeps_invariant (fun past => Position build crates configPath past gens [] ∧ inv past)
    (fun _ a _ known allowed => ⟨position_quiet (quiet a allowed) known.1, more _ _ known.2⟩)
    (fun _ a _ allowed => mayWrite_quiet (quiet a allowed)) keeps ⟨position, here⟩

theorem install_writes (position : Position build crates configPath past gens []) {config : Config}
    {cache : Table String Plugin}
    (accepted : ∀ base, Accepted build crates configPath past ⟨config, buildLbMap base config, cache⟩) :
    Keeps (MayWrite build crates configPath)
      (fun past _ => ∃ gens, Position build crates configPath past gens []) past
      (Reload.install build config cache) := by
  refine keeps_call_bind.mpr ⟨mayWrite_quiet rfl, fun base => keeps_bind.mpr ?_⟩
  refine keeps_mono (fun _ _ may => may) ?_ (position_stable (by rintro _ ⟨spec, rfl⟩; rfl)
    (fun past => Accepted build crates configPath past ⟨config, buildLbMap base config, cache⟩)
    (fun _ _ => accepted_append _) (spawnProbers_keeps (Health.probeSpecs config) _)
    (position_quiet rfl position) (accepted_append _ (accepted base)))
  rintro past handles ⟨⟨position, accepted⟩, -⟩
  refine keeps_bind.mpr (keeps_mono (fun _ _ may => may) ?_ (swapStores_writes position accepted))
  intro past _ position
  refine keeps_call_bind.mpr ⟨mayWrite_quiet rfl, fun previous => ?_⟩
  refine keeps_mono (fun _ _ may => may) ?_ (position_stable (by rintro _ ⟨handle, rfl⟩; rfl) (fun _ => True)
    (fun _ _ _ => trivial) (abortAll_keeps previous _) (position_quiet rfl position) trivial)
  rintro past _ ⟨⟨position, -⟩, -⟩
  exact ⟨_, position⟩

theorem reloadOnce_writes (position : Position build crates configPath past gens []) :
    Keeps (MayWrite build crates configPath)
      (fun past _ => ∃ gens, Position build crates configPath past gens []) past
      (Reload.reloadOnce build crates configPath) := by
  refine keeps_call_bind.mpr ⟨mayWrite_quiet rfl, fun _ => keeps_bind.mpr ?_⟩
  refine keeps_mono (fun _ _ may => may) ?_ (position_stable (by rintro _ ⟨path, rfl⟩; rfl) (fun _ => True)
    (fun _ _ _ => trivial) (loadConfig_parsed _) (position_quiet rfl position) trivial)
  rintro past loaded ⟨⟨position, -⟩, parsed⟩
  cases loaded with
  | error e => exact ⟨gens, position⟩
  | ok config =>
    cases valid : config.validate build crates.parseUri with
    | error e => simpa only [valid] using ⟨gens, position⟩
    | ok _ =>
      simp only [valid]
      refine keeps_bind.mpr (keeps_mono (fun _ _ may => may) ?_ (position_stable (by rintro _ ⟨path, rfl⟩; rfl)
        (fun past => Parsed crates configPath past (.ok config)) ?_ (compilePlugins_keeps build crates config past)
        position parsed))
      · rintro past plugins ⟨⟨position, parsed⟩, compiles⟩
        cases plugins with
        | error e => exact ⟨gens, position⟩
        | ok cache =>
          refine keeps_bind.mpr (keeps_mono (fun _ _ may => may) (fun _ _ ended => ended)
            (install_writes position fun base => ?_))
          exact ⟨parsed, valid, ⟨base, rfl⟩, compiles⟩
      · rintro past e ⟨content, read, parsed⟩
        exact ⟨content, List.mem_append_left _ read, parsed⟩

theorem watchConfigSignal_writes (rounds : Nat) (position : Position build crates configPath past gens []) :
    Keeps (MayWrite build crates configPath)
      (fun past _ => ∃ gens, Position build crates configPath past gens []) past
      (Reload.watchConfigSignal build crates configPath rounds) := by
  induction rounds generalizing past gens with
  | zero => exact ⟨gens, position⟩
  | succ rounds ih =>
    refine keeps_bind.mpr (keeps_mono (fun _ _ may => may) ?_ (reloadOnce_writes position))
    rintro past _ ⟨gens, position⟩
    exact ih position

end

/-! ## Counting the writes -/

def configWrite : Act → Option Config
  | .writeConfig config => some config
  | _ => none

def pluginWrite : Act → Option (Table String Plugin)
  | .writePluginCache cache => some cache
  | _ => none

def lbWrite : Act → Option (Table String LoadBalancer)
  | .writeLbCache cache => some cache
  | _ => none

section
variable {build : Build} {crates : Crates} {configPath : String} {past : History} {gens : List Generation}
  {rest : List Act}

/-- What is left to write is what one generation has not written yet behind its balancers. -/
theorem rest_cases (written : gens.flatMap (·.writes build) = replacements past ++ rest)
    (short : rest.length < stages build) :
    rest = [] ∨ (∃ config, rest = [.writeConfig config]) ∨
      (build.plugins = true ∧ ∃ cache config, rest = [.writePluginCache cache, .writeConfig config]) := by
  rcases List.eq_nil_or_concat gens with rfl | ⟨front, g, rfl⟩
  · left
    have empty : replacements past ++ rest = [] := written.symm
    exact (List.append_eq_nil_iff.mp empty).2
  · rw [List.concat_eq_append, List.flatMap_append, List.flatMap_singleton] at written
    have remains : rest <:+ g.writes build := by
      refine List.suffix_of_suffix_length_le (List.suffix_append (replacements past) rest) ?_ ?_
      · rw [← written]
        exact List.suffix_append _ _
      · rw [writes_length]
        omega
    rcases List.suffix_cons_iff.mp remains with whole | behind
    · have all : rest.length = stages build := by
        rw [← writes_length (g := g), whole]
        rfl
      omega
    · by_cases active : build.plugins = true
      · simp only [active, if_true, List.singleton_append, List.suffix_cons_iff, List.suffix_nil] at behind
        rcases behind with two | one | empty
        · exact .inr (.inr ⟨active, _, _, two⟩)
        · exact .inr (.inl ⟨_, one⟩)
        · exact .inl empty
      · simp only [active, Bool.false_eq_true, if_false, List.nil_append, List.suffix_cons_iff, List.suffix_nil] at behind
        rcases behind with one | empty
        · exact .inr (.inl ⟨_, one⟩)
        · exact .inl empty

theorem written_lbs (build : Build) (gens : List Generation) :
    (gens.flatMap (·.writes build)).filterMap lbWrite = gens.map (·.lbs) := by
  induction gens with
  | nil => rfl
  | cons g rest ih =>
    rw [List.flatMap_cons, List.filterMap_append, ih]
    by_cases active : build.plugins = true
    · simp [Generation.writes, lbWrite, active]
    · simp [Generation.writes, lbWrite, active]

theorem written_plugins {build : Build} (gens : List Generation) (active : build.plugins = true) :
    (gens.flatMap (·.writes build)).filterMap pluginWrite = gens.map (·.plugins) := by
  induction gens with
  | nil => rfl
  | cons g rest ih =>
    rw [List.flatMap_cons, List.filterMap_append, ih]
    simp [Generation.writes, pluginWrite, List.filterMap_cons, active]

theorem written_configs (build : Build) (gens : List Generation) :
    (gens.flatMap (·.writes build)).filterMap configWrite = gens.map (·.config) := by
  induction gens with
  | nil => rfl
  | cons g rest ih =>
    rw [List.flatMap_cons, List.filterMap_append, ih]
    by_cases active : build.plugins = true
    · simp [Generation.writes, configWrite, List.filterMap_cons, active]
    · simp [Generation.writes, configWrite, List.filterMap_cons, active]

/-- How far each store has got through the generations: the balancers through all of
    them, the config through all but possibly the last one, the plugins in between. -/
structure Progress (build : Build) (gens : List Generation) (written : List Act) : Prop where
  lbs : written.filterMap lbWrite = gens.map (·.lbs)
  plugins : build.plugins = true → ∃ later, written.filterMap pluginWrite ++ later = gens.map (·.plugins)
  configs : ∃ later, written.filterMap configWrite ++ later = gens.map (·.config)
  plugins_behind : build.plugins = true → (written.filterMap pluginWrite).length ≤ gens.length
  config_behind : build.plugins = true →
    (written.filterMap configWrite).length ≤ (written.filterMap pluginWrite).length
  config_last : (written.filterMap configWrite).length ≤ gens.length
  config_close : gens.length ≤ (written.filterMap configWrite).length + 1

theorem position_progress (position : Position build crates configPath past gens rest)
    (short : rest.length < stages build) : Progress build gens (replacements past) := by
  have lbs := written_lbs build gens
  have configs := written_configs build gens
  have plugins (active : build.plugins = true) := written_plugins gens active
  rw [position.written, List.filterMap_append] at lbs configs plugins
  have lbCount := congrArg List.length lbs
  have configCount := congrArg List.length configs
  have pluginCount := fun active => congrArg List.length (plugins active)
  simp only [List.length_append, List.length_map] at lbCount configCount pluginCount
  rcases rest_cases position.written short with rfl | ⟨config, rfl⟩ | ⟨active, cache, config, rfl⟩
  · simp only [List.filterMap_nil, List.length_nil, Nat.add_zero, List.append_nil] at lbs lbCount configCount pluginCount
    refine ⟨lbs, fun active => ⟨_, plugins active⟩, ⟨_, configs⟩, fun active => ?_, fun active => ?_, ?_, ?_⟩
    · exact (pluginCount active).le
    · rw [configCount, pluginCount active]
    · exact configCount.le
    · omega
  · simp only [List.filterMap_cons, List.filterMap_nil, lbWrite, configWrite, pluginWrite, List.length_cons,
      List.length_nil, Nat.add_zero, List.append_nil] at lbs lbCount configCount pluginCount
    refine ⟨lbs, fun active => ⟨_, plugins active⟩, ⟨_, configs⟩, fun active => ?_, fun active => ?_, ?_, ?_⟩
    · exact (pluginCount active).le
    · have := pluginCount active
      omega
    · omega
    · omega
  · simp only [List.filterMap_cons, List.filterMap_nil, lbWrite, configWrite, pluginWrite, List.length_cons,
      List.length_nil, Nat.add_zero, List.append_nil] at lbs lbCount configCount pluginCount
    have pluginCount := pluginCount active
    refine ⟨lbs, fun active => ⟨_, plugins active⟩, ⟨_, configs⟩, fun _ => ?_, fun _ => ?_, ?_, ?_⟩ <;> omega

end

/-! ## The stores as registers -/

section
variable (crates : Crates)

def configStore : Register (perform crates) Config where
  get s := s.config
  write := configWrite
  written := by
    intro o t a s r s' done
    rcases (perform_changes done).config with same | ⟨_, wrote⟩
    · cases a with
      | writeConfig config =>
        rw [(perform_writeConfig done).2]
        rfl
      | _ => exact same
    · rw [wrote]
      rfl

def pluginStore : Register (perform crates) (Table String Plugin) where
  get s := s.pluginCache
  write := pluginWrite
  written := by
    intro o t a s r s' done
    rcases (perform_changes done).pluginCache with same | wrote
    · cases a with
      | writePluginCache cache => exact perform_writePluginCache done
      | _ => exact same
    · rw [wrote]
      rfl

def lbStore : Register (perform crates) (Table String LoadBalancer) where
  get s := s.lbCache
  write := lbWrite
  written := by
    intro o t a s r s' done
    rcases (perform_changes done).lbCache with same | wrote
    · cases a with
      | writeLbCache cache => exact perform_writeLbCache done
      | _ => exact same
    · rw [wrote]
      rfl

end

/-- What the stores hold at the beginning. -/
def generationOf (s : Store) : Generation := ⟨s.config, s.lbCache, s.pluginCache⟩

section
variable {sys : System} {meets : System.World → Tid → Prop} {s : Store} {w : System.World} {Value : Type}

theorem position_start (build : Build) (crates : Crates) (configPath : String) :
    Position build crates configPath [] [] [] := ⟨by simp, rfl⟩

theorem reload_writes (sys : System) :
    Keeps (MayWrite sys.build sys.crates sys.configPath)
      (fun past _ => ∃ gens, Position sys.build sys.crates sys.configPath past gens []) [] (sys.program .reload) :=
  watchConfigSignal_writes sys.reloads (position_start _ _ _)

/-- In every reached world the reload stands somewhere in its last generation. -/
theorem reaches_position (reaches : sys.Reaches meets s w) :
    ∃ gens rest, Position sys.build sys.crates sys.configPath (Pool.own .reload w.log) gens rest ∧
      rest.length < stages sys.build := by
  refine Pool.reaches_invariant (fun w => ∃ gens rest,
    Position sys.build sys.crates sys.configPath (Pool.own .reload w.log) gens rest ∧
      rest.length < stages sys.build) ?_ ?_ reaches
  · refine ⟨[], [], position_start _ _ _, ?_⟩
    unfold stages
    split <;> simp
  · rintro o t w₁ w₂ before ⟨gens, rest, position, short⟩ _ taken
    obtain ⟨a, next, r, s', head, _, rfl⟩ := Pool.step_cases taken
    rw [Pool.own_append]
    by_cases same : t = .reload
    · subst same
      rw [Pool.own_single_self]
      by_cases write : replaces a = true
      · have contract := System.own_keeps (reload_writes sys) before
        rw [head] at contract
        obtain ⟨gens, rest, position, short⟩ := contract.1 write
        exact ⟨gens, rest, position_write write position, short⟩
      · exact ⟨gens, rest, position_quiet (by simpa using write) position, short⟩
    · rw [Pool.own_single_other _ same, List.append_nil]
      exact ⟨gens, rest, position, short⟩

/-- The writes of a store are those of the reload. -/
theorem writes_reload (reaches : sys.Reaches meets s w) {write : Act → Option Value}
    (replacing : ∀ a, write a ≠ none → replaces a = true) :
    writes write w.log = (replacements (Pool.own .reload w.log)).filterMap write := by
  rw [Registers.writes_own (t := .reload)]
  · unfold replacements
    rw [List.filterMap_filter, List.filterMap_map]
    refine List.filterMap_congr fun e _ => ?_
    by_cases wrote : write e.act = none
    · simp [wrote]
    · simp [replacing _ wrote]
  · intro e member other
    by_contra wrote
    obtain ⟨before, after, logged⟩ := List.append_of_mem member
    obtain ⟨o, w₁, next, s', reaches₁, _, _, head, _⟩ := Pool.reaches_event reaches logged
    refine other (System.reload_only reaches₁ head ?_)
    have replaced := replacing _ wrote
    by_contra role
    rw [role_quiet role] at replaced
    cases replaced

theorem configWrite_replaces (a : Act) (wrote : configWrite a ≠ none) : replaces a = true := by
  cases a <;> first | rfl | exact absurd rfl wrote

theorem pluginWrite_replaces (a : Act) (wrote : pluginWrite a ≠ none) : replaces a = true := by
  cases a <;> first | rfl | exact absurd rfl wrote

theorem lbWrite_replaces (a : Act) (wrote : lbWrite a ≠ none) : replaces a = true := by
  cases a <;> first | rfl | exact absurd rfl wrote

/-- In every reached world the config is the least advanced store and the balancers
    are at most one generation ahead of it. -/
theorem version_order (reaches : sys.Reaches meets s w) :
    version configWrite w.log ≤ version lbWrite w.log ∧ version lbWrite w.log ≤ version configWrite w.log + 1 ∧
      (sys.build.plugins = true → version configWrite w.log ≤ version pluginWrite w.log ∧
        version pluginWrite w.log ≤ version lbWrite w.log) := by
  obtain ⟨gens, rest, position, short⟩ := reaches_position reaches
  have progress := position_progress position short
  have lbCount := congrArg List.length progress.lbs
  rw [List.length_map] at lbCount
  unfold version
  rw [writes_reload reaches configWrite_replaces, writes_reload reaches lbWrite_replaces,
    writes_reload reaches pluginWrite_replaces, lbCount]
  exact ⟨progress.config_last, progress.config_close,
    fun active => ⟨progress.config_behind active, progress.plugins_behind active⟩⟩

/-! ## What requests read -/

/-- The actions that read one of the three stores. -/
def reads : Act → Bool
  | .readConfig | .getPlugin _ | .getBalancer _ => true
  | _ => false

/-- The version of the store that an action reads, after the events of a log. -/
def versionRead (log : List (Tid × Event Act.Res)) : Act → Nat
  | .readConfig => version configWrite log
  | .getPlugin _ => version pluginWrite log
  | .getBalancer _ => version lbWrite log
  | _ => 0

/-- The read was answered from this generation. -/
def AnsweredFrom (g : Generation) : Event Act.Res → Prop
  | ⟨.readConfig, config⟩ => config = g.config
  | ⟨.getPlugin path, plugin⟩ => plugin = g.plugins.get path
  | ⟨.getBalancer name, lb⟩ => lb = g.lbs.get name
  | _ => True

/-- Every read of a request is answered from the generation at its version, and no
    read of a request has an older version than the reads before it. The plugin of
    the request is at most one generation newer than its config. -/
structure ReadsForward (gens : List Generation) (log : List (Tid × Event Act.Res)) : Prop where
  answered : ∀ before n e after, log = before ++ (.request n, e) :: after → reads e.act = true →
    ∃ g, gens[versionRead before e.act]? = some g ∧ AnsweredFrom g e
  forward : ∀ before n e middle e' after, log = before ++ (.request n, e) :: (middle ++ (.request n, e') :: after) →
    reads e.act = true → reads e'.act = true →
    versionRead before e.act ≤ versionRead (before ++ (.request n, e) :: middle) e'.act
  close : ∀ before n config middle path plugin after,
    log = before ++ (.request n, ⟨.readConfig, config⟩) :: (middle ++ (.request n, ⟨.getPlugin path, plugin⟩) :: after) →
    versionRead (before ++ (.request n, ⟨.readConfig, config⟩) :: middle) (.getPlugin path) ≤
      versionRead before .readConfig + 1

/-- The config is not written while a request that has only read it holds its guard. -/
theorem version_held (reaches : sys.Reaches meets s w) {n : Nat} {config : Config}
    {before middle : List (Tid × Event Act.Res)}
    (logged : w.log = before ++ (.request n, ⟨.readConfig, config⟩) :: middle)
    (read : Pool.own (.request n) w.log = ([⟨.readConfig, config⟩] : History)) :
    version configWrite w.log = version configWrite before := by
  have split : w.log = before ++ [(.request n, ⟨.readConfig, config⟩)] ++ middle := by
    rw [logged, List.append_assoc, List.singleton_append]
  have one : version configWrite [((.request n : Tid), (⟨.readConfig, config⟩ : Event Act.Res))] = 0 := rfl
  have quiet : version configWrite middle = 0 := by
    refine Registers.version_quiet ?_
    rintro ⟨t, e⟩ member
    obtain ⟨front, back, rfl⟩ := List.append_of_mem member
    by_contra wrote
    have shape : w.log = before ++ [(.request n, ⟨.readConfig, config⟩)] ++ front ++ (t, e) :: back := by
      rw [split, List.append_assoc _ front]
    obtain ⟨o, w₁, next, s', reaches₁, log₁, _, _, done⟩ := Pool.reaches_event reaches shape
    have log₁ : w₁.log = before ++ [(.request n, ⟨.readConfig, config⟩)] ++ front := log₁
    have here : Pool.own (.request n) w₁.log = ([⟨.readConfig, config⟩] : History) := by
      have count := congrArg List.length read
      rw [shape] at count
      simp only [Pool.own_append, Pool.own_single_self, List.length_append, List.length_singleton] at count
      have none₁ := List.eq_nil_of_length_eq_zero (l := Pool.own (.request n) before) (by omega)
      have none₂ := List.eq_nil_of_length_eq_zero (l := Pool.own (.request n) front) (by omega)
      rw [log₁, Pool.own_append, Pool.own_append, Pool.own_single_self, none₁, none₂]
      rfl
    obtain ⟨a, r⟩ := e
    cases a with
    | writeConfig config' =>
      have guard := (Guarding.config_held reaches₁ here).1
      rw [(perform_writeConfig done).1] at guard
      cases guard
    | _ => exact wrote rfl
  rw [split, Registers.version_append, Registers.version_append, one, quiet, Nat.add_zero]

/-- A store that went through the generations holds the part of the one at its version. -/
theorem store_answers (register : Register (perform sys.crates) Value) {part : Generation → Value}
    {gens : List Generation} (first : register.get s = part (generationOf s)) {before more : List (Tid × Event Act.Res)}
    (through : ∃ later, writes register.write (before ++ more) ++ later = gens.map part) {w₁ : System.World}
    (reaches : sys.Reaches meets s w₁) (logged : w₁.log = before) :
    ∃ g, (generationOf s :: gens)[version register.write before]? = some g ∧ register.get w₁.state = part g := by
  obtain ⟨later, all⟩ := through
  rw [Registers.writes_append, List.append_assoc] at all
  subst logged
  have held := Registers.reaches_version register rfl reaches all
  have start : register.get (sys.world s).state = part (generationOf s) := first
  rw [start, ← List.map_cons, List.getElem?_map] at held
  obtain ⟨g, there, same⟩ := Option.map_eq_some_iff.mp held
  exact ⟨g, there, same.symm⟩

/-- A request that reads again reads a store that the reload writes earlier. -/
theorem reads_order {n : Nat} {past : History} {a : Act} (may : sys.May n past a) (read : reads a = true) :
    (∃ name, a = .getBalancer name) ∨ (a = .readConfig ∧ past = []) ∨
      ∃ path config, a = .getPlugin path ∧ past = [⟨.readConfig, config⟩] ∧ sys.build.plugins = true := by
  cases a with
  | readConfig => exact .inr (.inl ⟨rfl, may⟩)
  | getPlugin path =>
    obtain ⟨config, route, past, _, active, _⟩ := may
    exact .inr (.inr ⟨path, config, rfl, past, active⟩)
  | getBalancer name => exact .inl ⟨name, rfl⟩
  | _ => cases read

theorem own_again {n : Nat} {e : Event Act.Res} {before middle : List (Tid × Event Act.Res)} :
    Pool.own (.request n) (before ++ (.request n, e) :: middle) =
      Pool.own (.request n) before ++ e :: Pool.own (.request n) middle := by
  have split : before ++ (.request n, e) :: middle = before ++ ([(.request n, e)] ++ middle) := rfl
  rw [split, Pool.own_append, Pool.own_append, Pool.own_single_self, List.singleton_append]

/-- Of a history with one event every part but one is empty. -/
theorem own_single {front back : History} {e e' : Event Act.Res} (one : front ++ e :: back = [e']) :
    front = [] ∧ e = e' ∧ back = [] := by
  rcases List.append_eq_singleton_iff.mp one with ⟨empty, single⟩ | ⟨_, empty⟩
  · obtain ⟨same, none'⟩ := List.cons.inj single
    exact ⟨empty, same, none'⟩
  · cases empty

/-- A later read of a request has no older version. -/
theorem reads_later {w₁ w₂ : System.World} {n : Nat} {e e' : Event Act.Res} {middle : List (Tid × Event Act.Res)}
    (reaches₁ : sys.Reaches meets s w₁) (reaches₂ : sys.Reaches meets s w₂)
    (logged : w₂.log = w₁.log ++ (.request n, e) :: middle) (may₁ : sys.May n (Pool.own (.request n) w₁.log) e.act)
    (may₂ : sys.May n (Pool.own (.request n) (w₁.log ++ (.request n, e) :: middle)) e'.act)
    (read : reads e.act = true) (read' : reads e'.act = true) :
    versionRead w₁.log e.act ≤ versionRead (w₁.log ++ (.request n, e) :: middle) e'.act := by
  obtain ⟨order₁, -, between₁⟩ := version_order reaches₁
  rcases reads_order may₂ read' with ⟨name', second⟩ | ⟨_, again⟩ | ⟨path', config', second, own, active⟩
  · rw [second]
    refine Nat.le_trans ?_ (Registers.version_append_le w₁.log ((.request n, e) :: middle))
    rcases reads_order may₁ read with ⟨name, first⟩ | ⟨first, _⟩ | ⟨path, config, first, _, active⟩
    · rw [first]
      exact Nat.le_refl _
    · rw [first]
      exact order₁
    · rw [first]
      exact (between₁ active).2
  · rw [own_again] at again
    simp at again
  · rw [own_again] at own
    obtain ⟨_, first, _⟩ := own_single own
    have kind : e.act = .readConfig := by rw [first]
    rw [kind, second]
    have order₂ := ((version_order reaches₂).2.2 active).1
    rw [logged] at order₂
    exact Nat.le_trans (Registers.version_append_le _ _) order₂

/-- In every run of any number of requests, reloads, probers and aborted tasks there is
    one list of generations, the initial stores and those that the reload accepted, from
    which every request reads forward. -/
theorem reads_forward (sys : System) (s : Store) (w : System.World) (reaches : sys.Reaches (fun _ _ => True) s w) :
    ∃ gens, (∀ g ∈ gens, Accepted sys.build sys.crates sys.configPath (Pool.own .reload w.log) g) ∧
      ReadsForward (generationOf s :: gens) w.log := by
  obtain ⟨gens, rest, position, short⟩ := reaches_position reaches
  have progress := position_progress position short
  refine ⟨gens, position.accepted, ?_, ?_, ?_⟩
  · rintro before n ⟨a, r⟩ after logged read
    obtain ⟨o, w₁, next, s', reaches₁, log₁, _, _, done, may⟩ := System.request_event reaches logged
    cases a with
    | readConfig =>
      obtain ⟨later, all⟩ := progress.configs
      rw [← writes_reload reaches configWrite_replaces, logged] at all
      obtain ⟨g, there, same⟩ := store_answers (configStore sys.crates) rfl ⟨later, all⟩ reaches₁ log₁
      exact ⟨g, there, (perform_readConfig done).1.trans same⟩
    | getPlugin path =>
      obtain ⟨_, _, _, _, active, _⟩ := may
      obtain ⟨later, all⟩ := progress.plugins active
      rw [← writes_reload reaches pluginWrite_replaces, logged] at all
      obtain ⟨g, there, same⟩ := store_answers (pluginStore sys.crates) rfl ⟨later, all⟩ reaches₁ log₁
      exact ⟨g, there, (perform_getPlugin done).trans (congrArg (·.get path) same)⟩
    | getBalancer name =>
      have all := progress.lbs
      rw [← writes_reload reaches lbWrite_replaces, logged] at all
      obtain ⟨g, there, same⟩ := store_answers (lbStore sys.crates) rfl ⟨[], by rw [List.append_nil]; exact all⟩
        reaches₁ log₁
      exact ⟨g, there, (perform_getBalancer done).trans (congrArg (·.get name) same)⟩
    | _ => cases read
  · intro before n e middle e' after logged read read'
    obtain ⟨_, w₁, _, _, reaches₁, rfl, _, _, _, may₁⟩ := System.request_event reaches logged
    have logged' : w.log = (w₁.log ++ (.request n, e) :: middle) ++ (.request n, e') :: after := by
      rw [logged, List.append_assoc, List.cons_append]
    obtain ⟨_, w₂, _, _, reaches₂, log₂, _, _, _, may₂⟩ := System.request_event reaches logged'
    exact reads_later reaches₁ reaches₂ log₂ may₁ may₂ read read'
  · intro before n config middle path plugin after logged
    have logged' : w.log = (before ++ (.request n, ⟨.readConfig, config⟩) :: middle) ++
        (.request n, ⟨.getPlugin path, plugin⟩) :: after := by
      rw [logged, List.append_assoc, List.cons_append]
    obtain ⟨_, w₂, _, _, reaches₂, log₂, _, _, _, config', _, own, _, active, _⟩ :=
      System.request_event reaches logged'
    rw [own_again] at own
    obtain ⟨_, same, back⟩ := own_single own
    cases same
    have held := version_held reaches₂ log₂ (by rw [log₂, own_again]; exact own)
    obtain ⟨_, close, between⟩ := version_order reaches₂
    have behind := (between active).2
    rw [log₂] at held close behind
    show version pluginWrite (before ++ (.request n, ⟨.readConfig, config⟩) :: middle) ≤ version configWrite before + 1
    omega

end

/-- The request reads its config before the reload and its balancer during it. -/
theorem reads_forward_overtaken :
    ∃ w, Lockstep.moving.Reaches (fun _ _ => True) Lockstep.oldStore w ∧ w.log.any Lockstep.isSent = true ∧
      ∃ gens, (∀ g ∈ gens, Accepted Lockstep.moving.build Lockstep.moving.crates Lockstep.moving.configPath
        (Pool.own .reload w.log) g) ∧ ReadsForward (generationOf Lockstep.oldStore :: gens) w.log := by
  obtain ⟨w, reaches, sent⟩ := System.reaches_of_run Lockstep.moving (fun _ _ => true) Lockstep.overtaking
    Lockstep.oldStore (fun w => w.log.any Lockstep.isSent) (by decide +kernel)
  have reaches := Pool.reaches_mono (fun _ _ _ => trivial) reaches
  exact ⟨w, reaches, sent, reads_forward Lockstep.moving Lockstep.oldStore w reaches⟩

end Versions
end Torana
