import Torana.ReloadRuns

/-!
The probers while reloads run. A reload spawns the probers of the new config, installs
it and aborts the ones before, so at every moment all probers of the installed config
run, next to some of the config before it or after it, and when the reload waits for a
signal there are no others. Requests, the probers themselves and the runtime that
drops aborted tasks do not disturb this.
-/
namespace Torana
open Plugins (Plugin)
open Upstream (LoadBalancer)
open Prog (Keeps)
open Pool (Follows follows_bind follows_call_bind follows_keeps follows_mono)

namespace Coverage
open Installing Rounds ReloadRuns
open Health (probeSpecs)

theorem modify_front {α : Type} {f : α → α} {front back : List α} {i : Nat} (inside : i < front.length) :
    (front ++ back).modify i f = front.modify i f ++ back := by
  induction front generalizing i with
  | nil => exact absurd inside (Nat.not_lt_zero _)
  | cons x rest ih =>
    cases i with
    | zero => rfl
    | succ i => simp [ih (Nat.lt_of_succ_lt_succ inside)]

/-! ## Positions of the reload -/

/-- Where the reload stands with the probers: what is left of the ones before, the
    installed config, the ones that are spawned ahead, the number of those that have
    ended and the handles that are kept. -/
structure Roster where
  before : List ProbeSpec
  config : Config
  after : List ProbeSpec
  ended : Nat
  handles : List Nat

/-- The probers that run, in the order in which they were spawned. -/
def Roster.specs (g : Roster) : List ProbeSpec := g.before ++ probeSpecs g.config ++ g.after

/-- The stores are as the position says. -/
structure Roster.Holds (g : Roster) (s : Store) : Prop where
  config : s.config = g.config
  handles : s.handles = g.handles
  tasks : ∃ old, old.length = g.ended ∧ (∀ task ∈ old, task.status ≠ .running) ∧
    s.tasks = old ++ g.specs.map running

/-- Only the probers of the installed config run, and the handles are theirs. -/
structure Roster.Idle (g : Roster) : Prop where
  before : g.before = []
  after : g.after = []
  handles : g.handles = List.range' g.ended (probeSpecs g.config).length

/-- The config was installed at the start or by the reload. -/
def Installed (first : Config) (past : History) (config : Config) : Prop :=
  config = first ∨ ⟨.writeConfig config, ()⟩ ∈ past

/-- The config was there at the start, or the reload has read and accepted it. -/
def Offered (sys : System) (first : Config) (past : History) (config : Config) : Prop :=
  config = first ∨ Named sys.build sys.crates sys.configPath past config

/-- What runs besides belongs to the end of one config's probers, which was installed, or
    the beginning of another's, which was accepted. -/
structure Roster.Tidy (sys : System) (first : Config) (past : History) (g : Roster) : Prop where
  before : ∃ previous, Installed first past previous ∧ g.before <:+ probeSpecs previous
  after : ∃ next, Offered sys first past next ∧ g.after <+: probeSpecs next
  one : g.before = [] ∨ g.after = []

/-- What the reload does next: wait for a signal only when no other prober runs. -/
structure Roster.May (sys : System) (first : Config) (g : Roster) (past : History) (a : Act) : Prop where
  tidy : g.Tidy sys first past
  waits : a = .recvSighup → g.Idle

/-- The actions that change the probers or the config. -/
def rosters : Act → Bool
  | .spawnProber _ | .writeConfig _ | .replaceHandles _ | .abort _ | .stopTask _ => true
  | _ => false

theorem installed_append {first config : Config} {past : History} (more : History)
    (installed : Installed first past config) : Installed first (past ++ more) config :=
  installed.imp_right (List.mem_append_left more)

theorem idle_tidy {sys : System} {first : Config} {past : History} {g : Roster} (idle : g.Idle) :
    g.Tidy sys first past :=
  ⟨⟨first, .inl rfl, by rw [idle.before]; exact List.nil_suffix⟩,
    ⟨first, .inl rfl, by rw [idle.after]; exact List.nil_prefix⟩, .inl idle.before⟩

theorem idle_may {sys : System} {first : Config} {past : History} {g : Roster} (idle : g.Idle) (a : Act) :
    g.May sys first past a :=
  ⟨idle_tidy idle, fun _ => idle⟩

section
variable {crates : Crates} {o : Outside} {t : Tid} {a : Act} {s s' : Store} {r : a.Res} {g : Roster}

theorem rosters_quiet (quiet : rosters a = false) (done : perform crates o t a s = some (r, s')) :
    s'.config = s.config ∧ s'.handles = s.handles ∧ s'.tasks = s.tasks := by
  refine ⟨?_, ?_⟩
  · rcases (perform_changes done).config with same | ⟨_, wrote⟩
    · exact same
    · rw [wrote] at quiet
      cases quiet
  · unfold perform at done
    split at done
    · cases done
    · cases a <;> simp only [Option.some.injEq, Prod.mk.injEq, reduceCtorEq] at done
      case getOrInsertFlag addr =>
        split at done <;> simp only [Option.some.injEq, Prod.mk.injEq] at done <;> obtain ⟨-, rfl⟩ := done <;>
          exact ⟨rfl, rfl⟩
      case startProber =>
        split at done
        · obtain ⟨task, -, same⟩ := Option.map_eq_some_iff.mp done
          obtain ⟨-, rfl⟩ := Prod.mk.inj same
          exact ⟨rfl, rfl⟩
        · cases done
      all_goals first | (obtain ⟨-, rfl⟩ := done; exact ⟨rfl, rfl⟩) | cases quiet

theorem quiet_roster (quiet : rosters a = false) (done : perform crates o t a s = some (r, s')) (here : g.Holds s) :
    g.Holds s' := by
  obtain ⟨config, handles, tasks⟩ := rosters_quiet quiet done
  exact ⟨config.trans here.config, handles.trans here.handles, tasks ▸ here.tasks⟩

/-- An abort marks its task and changes nothing else. -/
theorem perform_abort {handle : Nat} {r : Unit} (done : perform crates o t (.abort handle) s = some (r, s')) :
    s'.tasks = abortTask s.tasks handle ∧ s'.config = s.config ∧ s'.handles = s.handles := by
  unfold perform at done
  split at done
  · cases done
  · simp only [Option.some.injEq, Prod.mk.injEq] at done
    obtain ⟨-, rfl⟩ := done
    unfold abortTask
    split <;> exact ⟨rfl, rfl, rfl⟩

/-- The runtime drops an aborted task, which is none of those that run. -/
theorem stop_roster {task : Nat} {r : Unit} (done : perform crates o t (.stopTask task) s = some (r, s'))
    (here : g.Holds s) : g.Holds s' := by
  unfold perform at done
  split at done
  · cases done
  · simp only at done
    split at done
    · rename_i aborted
      cases done
      obtain ⟨old, length, ended, tasks⟩ := here.tasks
      obtain ⟨found, there, status⟩ := (Option.any_eq_true _ _).mp aborted
      have status : found.status = .aborted := by simpa using status
      have inside : task < old.length := by
        by_contra beyond
        rw [tasks, List.getElem?_append_right (by omega)] at there
        obtain ⟨spec, _, same⟩ := List.mem_map.mp (List.mem_of_getElem? there)
        rw [← same] at status
        cases status
      refine ⟨here.config, here.handles, old.modify task fun t => { t with status := .stopped }, ?_, ?_, ?_⟩
      · rw [List.length_modify]
        exact length
      · intro entry member
        obtain ⟨i, within, rfl⟩ := List.getElem_of_mem member
        rw [List.getElem_modify]
        split
        · simp
        · exact ended _ (List.getElem_mem _)
      · show s.tasks.modify task _ = _
        rw [tasks, modify_front inside]
    · cases done

end

/-! ## The outline of a reload -/

/-- The outline of a part of the reload, by its position. -/
abbrev Plan (sys : System) (first : Config) {α : Type} (fin : Roster → History → α → Prop) :=
  Follows (perform sys.crates) Roster.Holds (Roster.May sys first) Tid.reload fin

section
variable {sys : System} {first : Config} {past : History} {g : Roster}

/-- The reload is between two rounds. -/
def Between (first : Config) (g : Roster) (past : History) : Prop := g.Idle ∧ Installed first past g.config

/-- Actions that change no prober leave the reload between two rounds. -/
theorem quiet_plan {α : Type} {permitted : History → Act → Prop} {post : History → α → Prop} (idle : g.Idle)
    (quiet : ∀ past a, permitted past a → rosters a = false) {p : Program α} (keeps : Keeps permitted post past p) :
    Plan sys first (fun g' past value => g' = g ∧ post past value) g past p :=
  follows_keeps (fun past a may => ⟨idle_may idle a, fun _ _ _ _ here done =>
    quiet_roster (quiet past a may) done here⟩) keeps

/-- One quiet action. -/
theorem quiet_call {a : Act} {α : Type} {f : a.Res → Program α} {fin : Roster → History → α → Prop}
    (may : g.May sys first past a) (quiet : rosters a = false)
    (rest : ∀ r, Plan sys first fin g (past ++ [⟨a, r⟩]) (f r)) : Plan sys first fin g past (Prog.call a >>= f) :=
  follows_call_bind.mpr ⟨may, fun _ _ r _ here done => ⟨g, quiet_roster quiet done here, rest r⟩⟩

/-- Spawning goes through the probers of the new config, and gives their handles. -/
theorem spawnProbers_plan (next : Config) (specs done : List ProbeSpec) (idle : g.before = [])
    (all : done ++ specs = probeSpecs next) (here : g.after = done)
    (named : Named sys.build sys.crates sys.configPath past next) :
    Plan sys first (fun g' _ handles => g' = { g with after := probeSpecs next } ∧
      handles = List.range' (g.ended + (probeSpecs g.config).length + done.length) specs.length) g past
      (Health.spawnProbers specs) := by
  induction specs generalizing g done past with
  | nil =>
    rw [List.append_nil] at all
    exact ⟨by rw [← all, ← here], rfl⟩
  | cons spec rest ih =>
    have tidy : g.Tidy sys first past := ⟨⟨first, .inl rfl, by rw [idle]; exact List.nil_suffix⟩,
      ⟨next, .inr named, by rw [here, ← all]; exact List.prefix_append _ _⟩, .inl idle⟩
    refine follows_call_bind.mpr ⟨⟨tidy, nofun⟩, fun o s r s' holds taken => ?_⟩
    refine ⟨{ g with after := done ++ [spec] }, ?_, ?_⟩
    · cases show some (s.tasks.length, { s with tasks := s.tasks ++ [⟨spec, .running⟩] }) = some (r, s') from taken
      obtain ⟨old, length, ended, tasks⟩ := holds.tasks
      refine ⟨holds.config, holds.handles, old, length, ended, ?_⟩
      show s.tasks ++ _ = _
      rw [tasks]
      simp [Roster.specs, here, running]
    · have handle : r = g.ended + (probeSpecs g.config).length + done.length := by
        cases show some (s.tasks.length, { s with tasks := s.tasks ++ [⟨spec, .running⟩] }) = some (r, s') from taken
        obtain ⟨old, length, _, tasks⟩ := holds.tasks
        have count := congrArg List.length tasks
        simp only [Roster.specs, idle, here, List.nil_append, List.length_append, List.length_map] at count
        show (s.tasks.length : Nat) = _
        omega
      refine follows_bind (follows_mono ?_ (ih (g := { g with after := done ++ [spec] }) (done ++ [spec]) idle
        (by simpa using all) rfl (named_append _ named)))
      rintro g' _ handles ⟨rfl, rfl⟩
      refine ⟨rfl, ?_⟩
      rw [handle, List.length_cons, List.range'_succ]
      simp [Nat.add_assoc]

/-- The handles of what is left of the probers before are aborted one after the other. -/
theorem abortAll_plan (left : List ProbeSpec) (previous : Config) (suffix : left <:+ probeSpecs previous)
    (here : g.before = left) (alone : g.after = []) (installed : Installed first past previous) :
    Plan sys first (fun g' _ _ => g' = { g with before := [], ended := g.ended + left.length }) g past
      (Reload.abortAll (List.range' g.ended left.length)) := by
  induction left generalizing g past with
  | nil =>
    obtain ⟨before, config, after, ended, handles⟩ := g
    cases here
    rfl
  | cons spec rest ih =>
    have tidy : g.Tidy sys first past := ⟨⟨previous, installed, here ▸ suffix⟩,
      ⟨first, .inl rfl, by rw [alone]; exact List.nil_prefix⟩, .inr alone⟩
    rw [List.length_cons, List.range'_succ]
    refine follows_call_bind.mpr ⟨⟨tidy, nofun⟩, fun o s r s' holds taken => ?_⟩
    refine ⟨{ g with before := rest, ended := g.ended + 1 }, ?_, ?_⟩
    · obtain ⟨old, length, ended, tasks⟩ := holds.tasks
      have rows : s.tasks = old ++ running spec :: (rest ++ probeSpecs g.config).map running := by
        rw [tasks, Roster.specs, here, alone]
        simp
      obtain ⟨marked, config, handles⟩ := perform_abort taken
      rw [rows, ← length, abortTask_at] at marked
      refine ⟨config.trans holds.config, handles.trans holds.handles, old ++ [aborted spec], by simp [length], ?_, ?_⟩
      · intro task member
        rcases List.mem_append.mp member with earlier | last
        · exact ended task earlier
        · obtain rfl := List.mem_singleton.mp last
          simp [aborted]
      · rw [marked]
        simp [Roster.specs, alone]
    · refine follows_mono ?_ (ih (g := { g with before := rest, ended := g.ended + 1 })
        ((List.suffix_cons spec rest).trans suffix) rfl alone (installed_append _ installed))
      rintro g' _ _ rfl
      simp [Nat.add_comm, Nat.add_left_comm]

/-- With the probers of the new config ahead the reload does anything but wait. -/
theorem ahead_may {config : Config} (idle : g.Idle) (named : Named sys.build sys.crates sys.configPath past config)
    {a : Act} (other : a ≠ .recvSighup) : Roster.May sys first { g with after := probeSpecs config } past a :=
  ⟨⟨⟨first, .inl rfl, by rw [idle.before]; exact List.nil_suffix⟩, ⟨config, .inr named, List.prefix_refl _⟩,
    .inl idle.before⟩, fun waits => absurd waits other⟩

/-- Behind the write of a config the probers that were ahead are its own. -/
def Roster.moved (g : Roster) (config : Config) : Roster := { g with before := probeSpecs g.config, config, after := [] }

theorem writeConfig_plan {config : Config} (idle : g.Idle)
    (named : Named sys.build sys.crates sys.configPath past config) :
    Plan sys first (fun g' past _ => g' = g.moved config ∧ Installed first past config)
      { g with after := probeSpecs config } past (call (.writeConfig config)) := by
  refine ⟨ahead_may idle named nofun, fun o s r s' holds done => ⟨g.moved config, ?_, rfl, .inr (by simp)⟩⟩
  obtain ⟨-, rfl⟩ := perform_writeConfig done
  obtain ⟨old, length, ended, rows⟩ := holds.tasks
  refine ⟨rfl, holds.handles, old, length, ended, rows.trans ?_⟩
  simp [Roster.moved, Roster.specs, idle.before]

theorem swapStores_plan {config : Config} {lbs : Table String LoadBalancer} {plugins : Table String Plugin}
    (idle : g.Idle) (named : Named sys.build sys.crates sys.configPath past config) :
    Plan sys first (fun g' past _ => g' = g.moved config ∧ Installed first past config)
      { g with after := probeSpecs config } past (Reload.swapStores sys.build config lbs plugins) := by
  refine quiet_call (ahead_may idle named nofun) rfl fun _ => ?_
  have named := named_append [⟨.writeLbCache lbs, ()⟩] named
  unfold Reload.writePlugins
  split
  · exact quiet_call (ahead_may idle named nofun) rfl fun _ => writeConfig_plan idle (named_append _ named)
  · exact writeConfig_plan idle named

/-- Installing moves from the probers of one config to those of the next. -/
theorem install_plan {config : Config} {plugins : Table String Plugin} (between : Between first g past)
    (named : Named sys.build sys.crates sys.configPath past config) :
    Plan sys first (fun g' past _ => Between first g' past) g past (Reload.install sys.build config plugins) := by
  obtain ⟨idle, current⟩ := between
  refine follows_bind (quiet_call (idle_may idle _) rfl fun base => ?_)
  have named := named_append [⟨.newCounters config.route.length, base⟩] named
  have current := installed_append [⟨.newCounters config.route.length, base⟩] current
  refine follows_bind (follows_mono ?_ (Pool.follows_grows
    (spawnProbers_plan config (probeSpecs config) [] idle.before rfl idle.after named)))
  rintro _ _ handles ⟨⟨rfl, rfl⟩, spawned, rfl⟩
  refine follows_bind (follows_mono ?_ (Pool.follows_grows (swapStores_plan idle (named_append _ named))))
  rintro _ _ _ ⟨⟨rfl, installed⟩, swapped, rfl⟩
  have current := installed_append swapped (installed_append spawned current)
  refine follows_call_bind.mpr ⟨⟨⟨⟨g.config, current, List.suffix_refl _⟩, ⟨first, .inl rfl, List.nil_prefix⟩,
    .inr rfl⟩, nofun⟩, fun o s previous s' holds done => ?_⟩
  obtain ⟨kept, rfl⟩ := perform_replaceHandles done
  rw [holds.handles.trans idle.handles] at kept
  subst kept
  refine ⟨{ g.moved config with
    handles := List.range' (g.ended + (probeSpecs g.config).length) (probeSpecs config).length },
    ⟨holds.config, by simp, holds.tasks⟩, ?_⟩
  refine follows_mono ?_ (Pool.follows_grows (abortAll_plan (g := { g.moved config with handles := _ })
    (probeSpecs g.config) g.config (List.suffix_refl _) rfl rfl (installed_append _ current)))
  rintro _ _ _ ⟨rfl, aborted, rfl⟩
  exact ⟨⟨rfl, rfl, rfl⟩, installed_append _ (installed_append _ installed)⟩

theorem reloadOnce_plan (between : Between first g past) :
    Plan sys first (fun g' past _ => Between first g' past) g past
      (Reload.reloadOnce sys.build sys.crates sys.configPath) := by
  obtain ⟨idle, current⟩ := between
  refine quiet_call (idle_may idle _) rfl fun _ => ?_
  have current := installed_append [⟨.recvSighup, ()⟩] current
  have loads : Keeps (fun _ a => ∃ path, a = .readToString path) (Parsed sys.crates sys.configPath) _
      (Reload.loadConfig sys.crates sys.configPath) := loadConfig_parsed (past ++ [⟨.recvSighup, ()⟩])
  refine follows_bind (follows_mono ?_ (Pool.follows_grows (quiet_plan idle ?_ loads)))
  · rintro _ _ loaded ⟨⟨rfl, parsed⟩, more, rfl⟩
    have current := installed_append more current
    cases loaded with
    | error e => exact ⟨idle, current⟩
    | ok config =>
      cases valid : config.validate sys.build sys.crates.parseUri with
      | error e =>
        simp only [valid]
        exact ⟨idle, current⟩
      | ok _ =>
        simp only [valid]
        refine follows_bind (follows_mono ?_ (Pool.follows_grows (quiet_plan idle ?_
          (compilePlugins_keeps sys.build sys.crates config _))))
        · rintro _ _ plugins ⟨⟨rfl, -⟩, read, rfl⟩
          have current := installed_append read current
          cases plugins with
          | error e => exact ⟨idle, current⟩
          | ok cache =>
            exact follows_bind (follows_mono (fun _ _ _ ended => ended)
              (install_plan ⟨idle, current⟩ (named_append _ ⟨parsed, valid⟩)))
        · rintro _ a ⟨path, rfl⟩
          rfl
  · rintro _ a ⟨path, rfl⟩
    rfl

theorem watchConfigSignal_plan (rounds : Nat) (between : Between first g past) :
    Plan sys first (fun g' past _ => Between first g' past) g past
      (Reload.watchConfigSignal sys.build sys.crates sys.configPath rounds) := by
  induction rounds generalizing g past with
  | zero => exact between
  | succ rounds ih => exact follows_bind (follows_mono (fun _ _ _ ended => ih ended) (reloadOnce_plan between))

end

/-! ## Every run -/

theorem roster_probers {g : Roster} {s : Store} (holds : g.Holds s) : probers s = g.specs := by
  obtain ⟨old, _, ended, tasks⟩ := holds.tasks
  exact stretch_probers ended tasks

theorem idle_probing {g : Roster} {s : Store} (idle : g.Idle) (holds : g.Holds s) :
    Probing (probeSpecs s.config) s := by
  obtain ⟨old, length, ended, tasks⟩ := holds.tasks
  refine ⟨old, ended, ?_, ?_⟩
  · rw [tasks, Roster.specs, idle.before, idle.after, holds.config, List.nil_append, List.append_nil]
  · rw [holds.handles, idle.handles, length, holds.config]

theorem probing_roster {s : Store} (probing : Probing (probeSpecs s.config) s) :
    ∃ g : Roster, g.Idle ∧ g.Holds s := by
  obtain ⟨old, ended, tasks, handles⟩ := probing
  exact ⟨⟨[], s.config, [], old.length, s.handles⟩, ⟨rfl, rfl, handles⟩, rfl, rfl, old, rfl, ended, by
    simpa [Roster.specs] using tasks⟩

/-- Whether the reload waits for a signal or has come to its end. -/
def waiting : Program Unit → Bool
  | .ret _ => true
  | .act .recvSighup _ => true
  | _ => false

/-- In every run all probers of the installed config run at every moment, next to some
    at most of one other config, which was installed before it or accepted to be
    installed after it, and no others whenever no reload is under way. -/
theorem probers_cover (sys : System) (s : Store) (w : System.World) (start : Probing (probeSpecs s.config) s)
    (reaches : sys.Reaches (fun _ _ => True) s w) :
    (∃ before after previous next, probers w.state = before ++ probeSpecs w.state.config ++ after ∧
      Installed s.config (Pool.own .reload w.log) previous ∧ before <:+ probeSpecs previous ∧
      Offered sys s.config (Pool.own .reload w.log) next ∧ after <+: probeSpecs next ∧
      (before = [] ∨ after = [])) ∧
    (waiting (w.threads .reload) = true → Probing (probeSpecs w.state.config) w.state) := by
  obtain ⟨first, idle, holds⟩ := probing_roster start
  have reached : ∃ g : Roster, g.Holds w.state ∧ Plan sys s.config (fun g past _ => Between s.config g past) g
      (Pool.own .reload w.log) (w.threads .reload) := by
    refine Pool.reaches_follows (fun a => a.role ≠ .reload) ?_ ?_ ?_ reaches
    · intro g o t a s r s' _ other here done
      by_cases stops : ∃ task, a = .stopTask task
      · obtain ⟨task, rfl⟩ := stops
        exact stop_roster done here
      · refine quiet_roster ?_ done here
        cases a <;> first | rfl | exact absurd ⟨_, rfl⟩ stops | exact absurd rfl other
    · intro t other
      refine Prog.only_mono (fun a same => ?_) (sys.program_role other)
      rw [same]
      cases t <;> first | exact absurd rfl other | simp [Tid.role]
    · exact ⟨first, holds, watchConfigSignal_plan sys.reloads ⟨idle, .inl holds.config.symm⟩⟩
  obtain ⟨g, holds, plan⟩ := reached
  have ended : waiting (w.threads .reload) = true → g.Idle := by
    intro waits
    cases head : w.threads .reload with
    | ret value =>
      rw [head] at plan
      exact plan.1
    | act a next =>
      rw [head] at plan waits
      cases a with
      | recvSighup => exact plan.1.waits rfl
      | _ => cases waits
  have tidy : g.Tidy sys s.config (Pool.own .reload w.log) := by
    cases head : w.threads .reload with
    | ret value =>
      rw [head] at ended
      exact idle_tidy (ended rfl)
    | act a next =>
      rw [head] at plan
      exact plan.1.tidy
  refine ⟨?_, fun waits => idle_probing (ended waits) holds⟩
  obtain ⟨previous, installed, behind⟩ := tidy.before
  obtain ⟨next, offered, ahead⟩ := tidy.after
  exact ⟨g.before, g.after, previous, next, by rw [roster_probers holds, holds.config]; rfl, installed, behind, offered,
    ahead, tidy.one⟩

/-! ## A reload that starts the first prober -/

/-- One reload that installs the config with a health check, and its prober. -/
def checking : System where
  build := Samples.build
  crates := checkedCrates
  configPath := "torana.toml"
  reloads := 1
  rounds _ := 1
  conn _ := Samples.conn
  req _ := Samples.get Multimap.empty

/-- The prober starts before the config is installed. -/
def startsEarly : List (Tid × Outside) :=
  List.replicate 4 (.reload, { Samples.outside with text := .ok checkedDocument }) ++
    List.replicate 2 (.prober 0, Samples.outside) ++ List.replicate 4 (.reload, Samples.outside)

theorem probers_cover_startsEarly :
    ∃ w, checking.Reaches (fun _ _ => True) uncheckedStore w ∧ (probers w.state).length = 1 ∧
      Probing (probeSpecs w.state.config) w.state := by
  have derived : Derived Samples.build checkedCrates Samples.outside.file
      (Samples.config [Samples.route "api" "http://10.0.0.1:80"]) uncheckedStore :=
    started_derived fun _ => ⟨by simp [Samples.config, Samples.route, Plugins.pluginPaths],
      fun path plugin found => nomatch found⟩
  obtain ⟨w, reaches, shown⟩ := System.reaches_of_run checking (fun _ _ => true) startsEarly uncheckedStore
    (fun w => waiting (w.threads .reload) && (probers w.state).length = 1) (by decide +kernel)
  simp only [Bool.and_eq_true, decide_eq_true_eq] at shown
  have reaches := Pool.reaches_mono (fun _ _ _ => trivial) reaches
  obtain ⟨_, settled⟩ := probers_cover checking uncheckedStore w (derived.current ▸ derived.probers) reaches
  exact ⟨w, reaches, shown.2, settled shown.1⟩

end Coverage
end Torana
