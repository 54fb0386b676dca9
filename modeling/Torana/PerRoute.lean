import Torana.Verdicts

/-!
Health checks are written down route by route, but the registry knows addresses only.
What a balancer reads for an upstream of its route is what the route's own probes found
exactly when all routes that list the address agree on the probe, or none of them has one.
-/
namespace Torana
open Config (RouteConfig HealthCheckConfig Duration)
open Health (probeSpecs)
open Prog (Keeps Only keeps_call_bind keeps_mono keeps_of_only keeps_stable)

namespace PerRoute
open Rounds ReloadRuns Verdicts
open Pool (alone alone_bind alone_call alone_call_bind)

/-! ## A route's own health -/

/-- The timeout with which a check is probed. -/
def timeoutOf (hc : HealthCheckConfig) : Duration := hc.timeoutDuration.toOption.getD 2000

/-- The addresses of a route's upstreams. -/
def addrs (route : RouteConfig) : List String := route.upstream.map (·.addr)

/-- The task is a prober with the path and the timeout of the check. -/
def probesFor (config : Config) (hc : HealthCheckConfig) : Tid → Bool
  | .prober n => ((probeSpecs config)[n]?).any fun spec => spec.path = hc.probePath && spec.timeout = timeoutOf hc
  | _ => false

/-- The verdicts that some of the tasks recorded; the events of the log and the verdicts
    come newest first. -/
def ownVerdictsFrom (mine : Tid → Bool) : List (Tid × Event Act.Res) → List (String × Bool)
  | [] => []
  | (t, e) :: earlier =>
    match e.act with
    | .swapFlag addr _ _ =>
      if mine t then (addr, concluded addr (Pool.own t earlier.reverse)) :: ownVerdictsFrom mine earlier
      else ownVerdictsFrom mine earlier
    | _ => ownVerdictsFrom mine earlier

/-- The health of an upstream by the route's own check: healthy without one, and otherwise
    what the last probe with its path and timeout found, or healthy before the first. -/
def ownHealth (config : Config) (route : RouteConfig) (addr : String) (log : List (Tid × Event Act.Res)) : Bool :=
  match route.healthCheck with
  | none => true
  | some hc => ((ownVerdictsFrom (probesFor config hc) log.reverse).lookup addr).getD true

/-- Whoever asks for the health of a route's upstream, now or before, is told what the
    route's own check says. -/
structure ByRoute (config : Config) (w : System.World) : Prop where
  now : ∀ route ∈ config.route, ∀ addr ∈ addrs route, w.state.isHealthy addr = ownHealth config route addr w.log
  used : ∀ before t addr answer after, w.log = before ++ (t, ⟨.isHealthy addr, answer⟩) :: after →
    ∀ route ∈ config.route, addr ∈ addrs route → answer = ownHealth config route addr before

/-- Every route that lists an address has the check of every other one that does: the same
    path and the same timeout. -/
def Agreeing (config : Config) : Prop :=
  ∀ route ∈ config.route, ∀ addr ∈ addrs route, ∀ other ∈ config.route, addr ∈ addrs other →
    ∀ hc', other.healthCheck = some hc' →
      ∃ hc, route.healthCheck = some hc ∧ hc.probePath = hc'.probePath ∧ timeoutOf hc = timeoutOf hc'

/-! ## The probers of a config that is not reloaded -/

/-- A run without a reload. -/
def Unreloaded : System.World → Tid → Prop := fun _ t => t ≠ .reload

/-- A prober records verdicts for the address that it was started with. -/
def Swaps (past : History) (a : Act) : Prop :=
  ∀ addr flag healthy, a = .swapFlag addr flag healthy → ∃ spec, ⟨.startProber, spec⟩ ∈ past ∧ spec.addr = addr

/-- The action records nothing for another address. -/
def RecordsFor (addr : String) (a : Act) : Prop := ∀ addr' flag healthy, a = .swapFlag addr' flag healthy → addr' = addr

theorem recordsFor_other {addr : String} {a : Act} (other : isSwap a = false) : RecordsFor addr a := by
  rintro addr' flag healthy rfl
  cases other

theorem set_records (addr : String) (healthy : Bool) : Only (RecordsFor addr) (Health.set addr healthy) := by
  refine Health.set_only (recordsFor_other rfl) (recordsFor_other rfl) (fun flag => ?_) (recordsFor_other rfl)
  rintro addr' flag' healthy' ⟨⟩
  rfl

theorem proberRounds_records (spec : ProbeSpec) (rounds : Nat) :
    Only (RecordsFor spec.addr) (Health.proberRounds spec rounds) := by
  refine Health.proberRounds_only rounds ?_ (set_records spec.addr) (recordsFor_other rfl)
  exact Health.probeOnce_only fun _ _ _ => recordsFor_other rfl

theorem prober_swaps (rounds : Nat) : Keeps Swaps (fun _ _ => True) [] (Health.prober rounds) := by
  refine keeps_call_bind.mpr ⟨?_, fun spec => ?_⟩
  · rintro addr flag healthy ⟨⟩
  · have inside : (⟨.startProber, spec⟩ : Event Act.Res) ∈ ([] ++ [⟨.startProber, spec⟩] : History) := by simp
    have bounded : Keeps (fun _ a => RecordsFor spec.addr a) (fun _ _ => True) [] (Health.proberRounds spec rounds) :=
      keeps_of_only (proberRounds_records spec rounds)
    refine keeps_mono (fun _ _ may => may) (fun _ _ _ => trivial)
      (keeps_stable (fun past => ⟨.startProber, spec⟩ ∈ past) ?_ ?_ bounded inside)
    · intro past a r started _
      exact List.mem_append_left _ started
    · intro past a started records addr flag healthy swap
      exact ⟨spec, started, (records addr flag healthy swap).symm⟩

/-! ## One step without a reload -/

section
variable {crates : Crates} {o : Outside} {t : Tid} {s s' : Store}

/-- Only the reload spawns probers. -/
theorem perform_specs {a : Act} {r : a.Res} (done : perform crates o t a s = some (r, s')) (other : a.role ≠ .reload) :
    s'.tasks.map (·.spec) = s.tasks.map (·.spec) := by
  refine (perform_leaves done).specs ?_
  rintro spec rfl
  exact other rfl

theorem perform_startProber {spec : ProbeSpec} (done : perform crates o t .startProber s = some (spec, s')) :
    ∃ n, t = .prober n ∧ (s.tasks.map (·.spec))[n]? = some spec := by
  unfold perform at done
  split at done
  · cases done
  · cases t with
    | prober n =>
      obtain ⟨task, here, same⟩ := Option.map_eq_some_iff.mp done
      obtain ⟨rfl, -⟩ := Prod.mk.inj same
      exact ⟨n, rfl, by rw [List.getElem?_map, here, Option.map_some]⟩
    | _ => cases done

end

/-! ## Every run without a reload -/

section
variable {sys : System} {config : Config} {plugins : Table String Plugins.Plugin} {w : System.World}

/-- The probers are those of the config, and each that has started knows its own. -/
structure Spawned (config : Config) (w : System.World) : Prop where
  specs : w.state.tasks.map (·.spec) = probeSpecs config
  started : ∀ n spec, (Tid.prober n, (⟨.startProber, spec⟩ : Event Act.Res)) ∈ w.log →
    (probeSpecs config)[n]? = some spec

theorem reaches_spawned (reaches : sys.Reaches Unreloaded (started sys.build config plugins) w) : Spawned config w := by
  have start : Spawned config (sys.world (started sys.build config plugins)) := by
    refine ⟨?_, fun n spec member => nomatch member⟩
    show ((probeSpecs config).map running).map (·.spec) = probeSpecs config
    rw [List.map_map]
    exact List.map_id _
  refine Pool.reaches_invariant (Spawned config) start ?_ reaches
  intro o t w₁ w₂ before spawned unreloaded taken
  obtain ⟨a, next, r, s', head, done, rfl⟩ := Pool.step_cases taken
  have other : a.role ≠ .reload := fun role => unreloaded (System.reload_only before head role)
  refine ⟨(perform_specs done other).trans spawned.specs, ?_⟩
  intro n spec member
  rcases List.mem_append.mp member with earlier | last
  · exact spawned.started n spec earlier
  · cases List.mem_singleton.mp last
    obtain ⟨m, same, here⟩ := perform_startProber done
    cases same
    rw [← spawned.specs]
    exact here

/-- Verdicts on an address are recorded by the probers that the config has for it. -/
theorem swap_spec (reaches : sys.Reaches Unreloaded (started sys.build config plugins) w) {t : Tid} {addr : String}
    {flag : Nat} {healthy was : Bool} (member : (t, (⟨.swapFlag addr flag healthy, was⟩ : Event Act.Res)) ∈ w.log) :
    ∃ n spec, t = .prober n ∧ (probeSpecs config)[n]? = some spec ∧ spec.addr = addr := by
  obtain ⟨trace, logged, runs⟩ := Pool.reaches_runs reaches
  have log : w.log = trace := logged
  have own := Pool.mem_own.mpr member
  obtain ⟨before, after, split⟩ := List.append_of_mem own
  have run := runs t
  rw [← log, split] at run
  have bounded : Keeps (fun _ a => a.role = t.role) (fun _ _ => True) [] (sys.program t) :=
    keeps_of_only (Installing.program_only sys t)
  have role := Prog.keeps_event bounded run
  cases t with
  | prober n =>
    obtain ⟨spec, started, same⟩ := Prog.keeps_event (prober_swaps (sys.rounds n)) run addr flag healthy rfl
    have earlier : (⟨.startProber, spec⟩ : Event Act.Res) ∈ Pool.own (.prober n) w.log := by
      rw [split]
      exact List.mem_append_left _ started
    exact ⟨n, spec, rfl, (reaches_spawned reaches).started n spec (Pool.mem_own.mp earlier), same⟩
  | _ => cases role

end

/-! ## Verdicts of the route's own probers -/

def isSwapOf (addr : String) : Act → Bool
  | .swapFlag addr' _ _ => addr' = addr
  | _ => false

/-- When all verdicts on the address are the tasks' own, the last one is. -/
theorem ownVerdicts_all {mine : Tid → Bool} {addr : String} {log : List (Tid × Event Act.Res)}
    (all : ∀ entry ∈ log, isSwapOf addr entry.2.act = true → mine entry.1 = true) :
    (ownVerdictsFrom mine log).lookup addr = (verdictsFrom log).lookup addr := by
  induction log with
  | nil => rfl
  | cons entry earlier ih =>
    obtain ⟨t, a, r⟩ := entry
    obtain ⟨here, behind⟩ := List.forall_mem_cons.mp all
    have ih := ih behind
    cases a with
    | swapFlag addr' flag healthy =>
      simp only [ownVerdictsFrom, verdictsFrom]
      by_cases same : addr' = addr
      · rw [if_pos (here (by simp [isSwapOf, same])), List.lookup_cons, List.lookup_cons, ih]
      · have different : (addr == addr') = false := by simpa using Ne.symm same
        split
        · rw [List.lookup_cons, List.lookup_cons, ih]
        · rw [List.lookup_cons, different, ih]
    | _ => exact ih

/-- Without a verdict on the address there is no last one. -/
theorem verdicts_none {addr : String} {log : List (Tid × Event Act.Res)}
    (unswapped : ∀ entry ∈ log, isSwapOf addr entry.2.act = false) : (verdictsFrom log).lookup addr = .none := by
  induction log with
  | nil => rfl
  | cons entry earlier ih =>
    obtain ⟨t, a, r⟩ := entry
    obtain ⟨here, behind⟩ := List.forall_mem_cons.mp unswapped
    have ih := ih behind
    cases a with
    | swapFlag addr' flag healthy =>
      simp only [isSwapOf, decide_eq_false_iff_not] at here
      have different : (addr == addr') = false := beq_eq_false_iff_ne.mpr fun same => here same.symm
      rw [verdictsFrom, List.lookup_cons, different, ih]
    | _ => exact ih

theorem ownVerdicts_mine {mine : Tid → Bool} {addr : String} {healthy : Bool} {log : List (Tid × Event Act.Res)}
    (found : (ownVerdictsFrom mine log).lookup addr = some healthy) : ∃ entry ∈ log, mine entry.1 = true := by
  induction log with
  | nil => cases found
  | cons entry earlier ih =>
    obtain ⟨t, a, r⟩ := entry
    by_cases own : mine t = true
    · exact ⟨_, List.mem_cons_self, own⟩
    · have behind : (ownVerdictsFrom mine earlier).lookup addr = some healthy := by
        cases a with
        | swapFlag addr' flag verdict =>
          rw [ownVerdictsFrom] at found
          simp only [if_neg own] at found
          exact found
        | _ => exact found
      obtain ⟨entry, member, mine⟩ := ih behind
      exact ⟨entry, List.mem_cons_of_mem _ member, mine⟩

/-! ## Agreeing checks -/

/-- A prober comes from a route that checks its address. -/
theorem probeSpecs_route {config : Config} {spec : ProbeSpec} (member : spec ∈ probeSpecs config) :
    ∃ route ∈ config.route, ∃ hc, route.healthCheck = some hc ∧ spec.addr ∈ addrs route ∧
      spec.path = hc.probePath ∧ spec.timeout = timeoutOf hc := by
  obtain ⟨route, listed, inside⟩ := List.mem_flatMap.mp member
  cases check : route.healthCheck with
  | none =>
    rw [check] at inside
    cases inside
  | some hc =>
    rw [check] at inside
    obtain ⟨upstream, here, rfl⟩ := List.mem_map.mp inside
    exact ⟨route, listed, hc, check, List.mem_map_of_mem here, rfl, rfl⟩

theorem route_probeSpecs {config : Config} {route : RouteConfig} (listed : route ∈ config.route) {hc : HealthCheckConfig}
    (check : route.healthCheck = some hc) {addr : String} (here : addr ∈ addrs route) :
    ∃ spec ∈ probeSpecs config, spec.addr = addr ∧ spec.path = hc.probePath ∧ spec.timeout = timeoutOf hc := by
  obtain ⟨upstream, member, rfl⟩ := List.mem_map.mp here
  refine ⟨⟨upstream.addr, hc.probePath, hc.intervalDuration.toOption.getD 10000, timeoutOf hc⟩, ?_, rfl, rfl, rfl⟩
  refine List.mem_flatMap.mpr ⟨route, listed, ?_⟩
  rw [check]
  exact List.mem_map.mpr ⟨upstream, member, rfl⟩

section
variable {sys : System} {config : Config} {plugins : Table String Plugins.Plugin} {w : System.World}

theorem agreeing_now (agreeing : Agreeing config) (reaches : sys.Reaches Unreloaded (started sys.build config plugins) w)
    {route : RouteConfig} (listed : route ∈ config.route) {addr : String} (here : addr ∈ addrs route) :
    w.state.isHealthy addr = ownHealth config route addr w.log := by
  have registry := reaches_registry rfl reaches
  rw [registry.recorded addr, lastVerdict, verdicts, ownHealth]
  have swaps : ∀ entry ∈ w.log.reverse, isSwapOf addr entry.2.act = true →
      ∃ hc, route.healthCheck = some hc ∧ probesFor config hc entry.1 = true := by
    rintro ⟨t, a, r⟩ member swap
    cases a with
    | swapFlag addr' flag healthy =>
      obtain ⟨n, spec, rfl, found, same⟩ := swap_spec reaches (List.mem_reverse.mp member)
      obtain ⟨other, otherListed, hc', check', checked, path, timeout⟩ := probeSpecs_route (List.mem_of_getElem? found)
      rw [same, of_decide_eq_true swap] at checked
      obtain ⟨hc, check, samePath, sameTimeout⟩ := agreeing route listed addr here other otherListed checked hc' check'
      refine ⟨hc, check, ?_⟩
      simp only [probesFor, found, Option.any_some, path, timeout, samePath, sameTimeout, decide_true, Bool.and_self]
    | _ => cases swap
  cases check : route.healthCheck with
  | none =>
    rw [verdicts_none]
    · rfl
    · intro entry member
      by_contra swap
      obtain ⟨hc, checked, -⟩ := swaps entry member (by simpa using swap)
      cases check.symm.trans checked
  | some hc =>
    have all : ∀ entry ∈ w.log.reverse, isSwapOf addr entry.2.act = true → probesFor config hc entry.1 = true := by
      intro entry member swap
      obtain ⟨hc', checked, own⟩ := swaps entry member swap
      cases check.symm.trans checked
      exact own
    show _ = ((ownVerdictsFrom (probesFor config hc) w.log.reverse).lookup addr).getD true
    rw [ownVerdicts_all all]

theorem agreeing_byRoute (agreeing : Agreeing config)
    (reaches : sys.Reaches Unreloaded (started sys.build config plugins) w) : ByRoute config w := by
  refine ⟨fun route listed addr here => agreeing_now agreeing reaches listed here, ?_⟩
  intro before t addr answer after split route listed here
  obtain ⟨w₁, earlier, log, told⟩ := reaches_isHealthy rfl reaches split
  rw [told, agreeing_now agreeing earlier listed here, log]

end

/-! ## A probe that fails -/

section
variable {crates : Crates} {o : Outside} {t : Tid} {s : Store} {addr : String}

theorem alone_swap (able : s.mayAct t = true) {flag : Nat} (found : s.flags.get addr = some flag) (healthy : Bool) :
    ∃ s', alone (perform crates) o t (do
        let wasHealthy ← call (.swapFlag addr flag healthy)
        if wasHealthy ≠ healthy then call (.logTransition addr healthy)) s = some ((), s') ∧
      s'.isHealthy addr = healthy ∧ s'.tasks = s.tasks := by
  have swapped : perform crates o t (.swapFlag addr flag healthy) s =
      some (s.flagValues flag, { s with flagValues := Function.update s.flagValues flag healthy }) := by
    simp [perform, able]
  refine ⟨{ s with flagValues := Function.update s.flagValues flag healthy }, ?_, ?_, rfl⟩
  · rw [alone_call_bind, swapped, Option.bind_some]
    split
    · have logged : perform crates o t (.logTransition addr healthy)
          { s with flagValues := Function.update s.flagValues flag healthy } =
          some ((), { s with flagValues := Function.update s.flagValues flag healthy }) := by
        unfold perform
        rw [show ({ s with flagValues := Function.update s.flagValues flag healthy } : Store).mayAct t = true from able]
        rfl
      rw [alone_call, logged]
    · rfl
  · simp [Store.isHealthy, found]

/-- `set` alone records what it was given. -/
theorem alone_set (able : s.mayAct t = true) (healthy : Bool) :
    ∃ s', alone (perform crates) o t (Health.set addr healthy) s = some ((), s') ∧ s'.isHealthy addr = healthy ∧
      s'.tasks = s.tasks := by
  have looked : perform crates o t (.getFlag addr) s = some (s.flags.get addr, s) := by simp [perform, able]
  unfold Health.set Health.flagOf
  rw [alone_bind, alone_call_bind, looked, Option.bind_some]
  cases found : s.flags.get addr with
  | some flag => exact alone_swap able found healthy
  | none =>
    let grown : Store := { s with
      flags := s.flags.insert addr s.nextFlag
      flagValues := Function.update s.flagValues s.nextFlag true
      nextFlag := s.nextFlag + 1 }
    have inserted : perform crates o t (.getOrInsertFlag addr) s = some (s.nextFlag, grown) := by
      simp [perform, able, found, grown]
    have able' : grown.mayAct t = true := able
    simp only [alone_call, inserted, Option.bind_some]
    exact alone_swap able' (Table.get_insert_self ..) healthy

theorem alone_probeOnce (able : s.mayAct t = true) (silent : o.reply = none) (path : String) (timeout : Duration) :
    alone (perform crates) o t (Health.probeOnce addr path timeout) s = some (false, s) := by
  unfold Health.probeOnce
  split
  · rfl
  · rw [alone_call_bind]
    simp [perform, able, silent]

/-- A prober whose upstream does not answer marks the address. -/
theorem alone_prober {n : Nat} {spec : ProbeSpec} (here : s.tasks[n]? = some (running spec)) (silent : o.reply = none) :
    ∃ s', alone (perform crates) o (.prober n) (Health.prober 1) s = some ((), s') ∧ s'.isHealthy spec.addr = false := by
  have able : s.mayAct (.prober n) = true := by
    simp [Store.mayAct, here, running]
  have begun : perform crates o (.prober n) .startProber s = some (spec, s) := by
    simp [perform, able, here, running]
  obtain ⟨s', recorded, unhealthy, tasks⟩ : ∃ s', alone (perform crates) o (.prober n) (Health.set spec.addr false) s =
      some ((), s') ∧ s'.isHealthy spec.addr = false ∧ s'.tasks = s.tasks := alone_set able false
  have slept : perform crates o (.prober n) (.sleep spec.interval) s' = some ((), s') := by
    have able' : s'.mayAct (.prober n) = true := by
      rw [Store.mayAct, tasks]
      exact able
    simp [perform, able']
  refine ⟨s', ?_, unhealthy⟩
  unfold Health.prober Health.proberRounds
  rw [alone_call_bind, begun, Option.bind_some, alone_bind, alone_probeOnce able silent, Option.bind_some, alone_bind,
    recorded, Option.bind_some, alone_call_bind, slept, Option.bind_some]
  rfl

end

/-! ## Health by route -/

/-- A proxy whose probers probe once. -/
def once : System where
  build := Samples.build
  crates := Samples.unreloaded
  configPath := "torana.toml"
  reloads := 0
  rounds _ := 1
  conn _ := Samples.conn
  req _ := Samples.get Multimap.empty

/-- A prober's failed probe is the only verdict of some run. -/
theorem failed_probe {config : Config} (plugins : Table String Plugins.Plugin) {spec : ProbeSpec}
    (member : spec ∈ probeSpecs config) : ∃ n w, (probeSpecs config)[n]? = some spec ∧
      once.Reaches Unreloaded (started once.build config plugins) w ∧ w.state.isHealthy spec.addr = false ∧
      ∀ entry ∈ w.log, entry.1 = .prober n := by
  obtain ⟨n, here⟩ := List.getElem?_of_mem member
  have task : (started once.build config plugins).tasks[n]? = some (running spec) := by
    show ((probeSpecs config).map running)[n]? = _
    rw [List.getElem?_map, here, Option.map_some]
  obtain ⟨s', ends, unhealthy⟩ : ∃ s', alone (perform once.crates) Samples.outside (.prober n) (Health.prober 1)
      (started once.build config plugins) = some ((), s') ∧ s'.isHealthy spec.addr = false := alone_prober task rfl
  have free : ∀ w : System.World, Unreloaded w (.prober n) := by
    intro w reload
    cases reload
  obtain ⟨w, trace, reaches, state, logged, own⟩ :=
    Pool.reaches_alone (w := once.world (started once.build config plugins)) free ends
  refine ⟨n, w, here, reaches, ?_, ?_⟩
  · rw [state]
    exact unhealthy
  · intro entry listed
    rw [logged] at listed
    exact own entry listed

/-- In all runs without a reload every balancer reads the health of its own route's check
    exactly when the routes that share an address agree on its check. -/
theorem byRoute_iff (config : Config) :
    (∀ (sys : System) (o : Outside) (s : Store) (w : System.World),
      alone (perform sys.crates) o .main (Reload.start sys.build sys.crates config) Store.initial = some ((), s) →
      sys.Reaches Unreloaded s w → ByRoute config w) ↔ Agreeing config := by
  constructor
  · intro all route listed addr here other otherListed shared hc' check'
    obtain ⟨spec, member, rfl, path, timeout⟩ := route_probeSpecs otherListed check' shared
    obtain ⟨plugins, starts, -⟩ := alone_start once.build once.crates (o := Samples.outside) config
    obtain ⟨n, w, found, reaches, unhealthy, only⟩ := failed_probe plugins member
    have told := (all once Samples.outside _ w starts reaches).now route listed spec.addr here
    rw [unhealthy, ownHealth] at told
    cases check : route.healthCheck with
    | none =>
      rw [check] at told
      cases told
    | some hc =>
      rw [check] at told
      have failed : (ownVerdictsFrom (probesFor config hc) w.log.reverse).lookup spec.addr = some false := by
        cases last : (ownVerdictsFrom (probesFor config hc) w.log.reverse).lookup spec.addr with
        | none =>
          simp only [last] at told
          cases told
        | some healthy =>
          simp only [last, Option.getD_some] at told
          rw [told]
      obtain ⟨entry, inside, own⟩ := ownVerdicts_mine failed
      rw [only entry (List.mem_reverse.mp inside)] at own
      simp only [probesFor, found, Option.any_some, Bool.and_eq_true, decide_eq_true_eq] at own
      exact ⟨hc, rfl, own.1.symm.trans path, own.2.symm.trans timeout⟩
  · intro agreeing sys o s w starts reaches
    obtain ⟨plugins, ends, -⟩ := alone_start sys.build sys.crates (o := o) config
    cases starts.symm.trans ends
    exact agreeing_byRoute agreeing reaches

/-- A route that checks an upstream, and one without a check that lists the same upstream. -/
def sharedConfig : Config := Samples.config [checkedRoute, Samples.route "web" "http://10.0.0.1:80"]

/-- The probe of the one route fails, and the other one, which has none, skips the upstream. -/
theorem shared_unhealthy :
    Config.validate Samples.build Samples.parseUri sharedConfig = .ok () ∧
      ∃ s w, alone (perform once.crates) Samples.outside .main (Reload.start once.build once.crates sharedConfig)
          Store.initial = some ((), s) ∧ once.Reaches Unreloaded s w ∧
        w.state.isHealthy "http://10.0.0.1:80" = false ∧
        ownHealth sharedConfig (Samples.route "web" "http://10.0.0.1:80") "http://10.0.0.1:80" w.log = true ∧
        ¬ByRoute sharedConfig w := by
  refine ⟨by decide, ?_⟩
  have member : (⟨"http://10.0.0.1:80", "/up", 10000, 2000⟩ : ProbeSpec) ∈ probeSpecs sharedConfig := by decide
  obtain ⟨plugins, starts, -⟩ := alone_start once.build once.crates (o := Samples.outside) sharedConfig
  obtain ⟨n, w, -, reaches, unhealthy, -⟩ := failed_probe plugins member
  refine ⟨_, w, starts, reaches, unhealthy, rfl, ?_⟩
  intro byRoute
  have told := byRoute.now (Samples.route "web" "http://10.0.0.1:80") (by decide) "http://10.0.0.1:80" (by decide)
  rw [unhealthy] at told
  cases told

end PerRoute
end Torana
