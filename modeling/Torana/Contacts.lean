import Torana.Lockstep
import Torana.PerRoute
import Torana.Versions

/-!
Whom the proxy contacts. Attempts, mirror copies and probes go to addresses that an
accepted config lists: the one at the start, or one that a reload read and accepted.
A request that a reload overtakes may be sent to an upstream that the config it read does
not list, but a config that was accepted lists it, under the name of the request's route.
-/
namespace Torana
open Http
open Config (Build RouteConfig Duration)
open Upstream (LoadBalancer buildLbMap)
open Health (probeSpecs)
open Proxy (upstreamHostPort)
open Prog (Keeps Only keeps_of_only only_of_keeps keeps_bind keeps_call_bind keeps_mono keeps_stable)

namespace Contacts
open Handling Installing Rounds Versions

/-! ## What a reload puts into the state -/

section
variable (build : Build) (crates : Crates) (configPath : String)

/-- What a reload writes and spawns derives from a config that it has accepted. -/
def MayPut (past : History) : Act → Prop
  | .writeLbCache lbs => ∃ config base, Named build crates configPath past config ∧ lbs = buildLbMap base config
  | .writeConfig config => Named build crates configPath past config
  | .spawnProber spec => ∃ config, Named build crates configPath past config ∧ spec ∈ probeSpecs config
  | _ => True

end

section
variable {build : Build} {crates : Crates} {configPath : String} {past : History} {config : Config}

/-- The actions of a reload that put nothing into the state which requests and probers read. -/
def puts : Act → Bool
  | .writeLbCache _ | .writeConfig _ | .spawnProber _ => true
  | _ => false

theorem mayPut_quiet {a : Act} (quiet : puts a = false) : MayPut build crates configPath past a := by
  cases a <;> first | exact trivial | cases quiet

/-- Parts of a reload that put nothing into the state leave what was read. -/
theorem quiet_named {α : Type} {allowed : Act → Prop} {p : Program α} (quiet : ∀ a, allowed a → puts a = false)
    (only : Only allowed p) (named : Named build crates configPath past config) :
    Keeps (MayPut build crates configPath) (fun past _ => Named build crates configPath past config) past p := by
  have all : Keeps (fun _ a => allowed a) (fun _ _ => True) past p := keeps_of_only only
  refine keeps_mono (fun _ _ may => may) (fun _ _ kept => kept.1)
    (keeps_stable (fun past => Named build crates configPath past config) ?_ ?_ all named)
  · intro past a r named _
    exact named_append _ named
  · intro past a _ allowed
    exact mayPut_quiet (quiet a allowed)

theorem spawnProbers_puts (specs : List ProbeSpec) (listed : ∀ spec ∈ specs, spec ∈ probeSpecs config)
    (named : Named build crates configPath past config) :
    Keeps (MayPut build crates configPath) (fun past _ => Named build crates configPath past config) past
      (Health.spawnProbers specs) := by
  induction specs generalizing past with
  | nil => exact named
  | cons spec rest ih =>
    refine keeps_call_bind.mpr ⟨⟨config, named, listed spec List.mem_cons_self⟩, fun handle => keeps_bind.mpr ?_⟩
    exact ih (fun spec member => listed spec (List.mem_cons_of_mem _ member)) (named_append _ named)

theorem swapStores_puts (base : Nat) (cache : Table String Plugins.Plugin)
    (named : Named build crates configPath past config) :
    Keeps (MayPut build crates configPath) (fun _ _ => True) past
      (Reload.swapStores build config (buildLbMap base config) cache) := by
  have written : ∀ {past : History}, Named build crates configPath past config →
      Keeps (MayPut build crates configPath) (fun _ _ => True) past (call (.writeConfig config)) :=
    fun named => ⟨named, fun _ => trivial⟩
  refine keeps_call_bind.mpr ⟨⟨config, base, named, rfl⟩, fun _ => ?_⟩
  unfold Reload.writePlugins
  split
  · exact keeps_call_bind.mpr ⟨trivial, fun _ => written (named_append _ (named_append _ named))⟩
  · exact written (named_append _ named)

theorem install_puts (cache : Table String Plugins.Plugin) (named : Named build crates configPath past config) :
    Keeps (MayPut build crates configPath) (fun _ _ => True) past (Reload.install build config cache) := by
  refine keeps_call_bind.mpr ⟨trivial, fun base => keeps_bind.mpr ?_⟩
  refine keeps_mono (fun _ _ may => may) ?_
    (spawnProbers_puts (probeSpecs config) (fun _ member => member) (named_append _ named))
  intro past handles named
  refine keeps_bind.mpr (keeps_mono (fun _ _ may => may) ?_ (swapStores_puts base cache named))
  intro past _ _
  refine keeps_call_bind.mpr ⟨trivial, fun previous => ?_⟩
  refine keeps_mono ?_ (fun _ _ _ => trivial) (abortAll_keeps previous _)
  rintro _ _ ⟨handle, rfl⟩
  trivial

theorem reloadOnce_puts (past : History) :
    Keeps (MayPut build crates configPath) (fun _ _ => True) past (Reload.reloadOnce build crates configPath) := by
  refine keeps_call_bind.mpr ⟨trivial, fun _ => keeps_bind.mpr ?_⟩
  have loads : Keeps (fun _ a => ∃ path, a = .readToString path) (Parsed crates configPath)
      (past ++ [⟨.recvSighup, ()⟩]) (Reload.loadConfig crates configPath) := loadConfig_parsed _
  refine keeps_mono ?_ ?_ loads
  · rintro _ _ ⟨path, rfl⟩
    trivial
  intro past loaded parsed
  cases loaded with
  | error e => trivial
  | ok config =>
    cases valid : config.validate build crates.parseUri with
    | error e => simp only [valid]; trivial
    | ok _ =>
      simp only [valid]
      have named : Named build crates configPath past config := ⟨parsed, valid⟩
      have reads : Only ReadsFile (Reload.compilePlugins build crates config) :=
        only_of_keeps (fun _ _ may => may) (compilePlugins_keeps build crates config past)
      refine keeps_bind.mpr (keeps_mono (fun _ _ may => may) ?_
        (quiet_named (by rintro _ ⟨path, rfl⟩; rfl) reads named))
      intro past plugins named
      cases plugins with
      | error e => trivial
      | ok cache =>
        exact keeps_bind.mpr (keeps_mono (fun _ _ may => may) (fun _ _ _ => trivial) (install_puts cache named))

theorem watchConfigSignal_puts (rounds : Nat) (past : History) :
    Keeps (MayPut build crates configPath) (fun _ _ => True) past
      (Reload.watchConfigSignal build crates configPath rounds) := by
  induction rounds generalizing past with
  | zero => trivial
  | succ rounds ih =>
    exact keeps_bind.mpr (keeps_mono (fun _ _ may => may) (fun past _ _ => ih past) (reloadOnce_puts past))

end

/-! ## What a prober sends -/

/-- What one probe sends, and to whom. -/
def Probe (addr path : String) (timeout : Duration) : Act → Prop
  | .exchange limit host port text => limit = timeout ∧ upstreamHostPort addr = .ok (host, port) ∧
    text = s!"GET {path} HTTP/1.1\r\nHost: {host}\r\nConnection: close\r\n\r\n"
  | _ => True

/-- A prober asks only where it was told to. -/
def Asks (past : History) (a : Act) : Prop :=
  a = .startProber ∨ ∃ spec, ⟨.startProber, spec⟩ ∈ past ∧ Probe spec.addr spec.path spec.timeout a

theorem proberRounds_probes (spec : ProbeSpec) (rounds : Nat) :
    Only (Probe spec.addr spec.path spec.timeout) (Health.proberRounds spec rounds) := by
  refine Health.proberRounds_only rounds ?_ (fun _ => Health.set_only trivial trivial (fun _ => trivial) trivial) trivial
  exact Health.probeOnce_only fun host port cut => ⟨rfl, cut, rfl⟩

theorem prober_asks (rounds : Nat) : Keeps Asks (fun _ _ => True) [] (Health.prober rounds) := by
  refine keeps_call_bind.mpr ⟨.inl rfl, fun spec => ?_⟩
  have told : (⟨.startProber, spec⟩ : Event Act.Res) ∈ ([] ++ [⟨.startProber, spec⟩] : History) := by simp
  have probes : Keeps (fun _ a => Probe spec.addr spec.path spec.timeout a) (fun _ _ => True) []
      (Health.proberRounds spec rounds) := keeps_of_only (proberRounds_probes spec rounds)
  refine keeps_mono (fun _ _ may => may) (fun _ _ _ => trivial)
    (keeps_stable (fun past => ⟨.startProber, spec⟩ ∈ past) ?_ ?_ probes told)
  · intro past a r told _
    exact List.mem_append_left _ told
  · intro past a told probe
    exact .inr ⟨spec, told, probe⟩

/-! ## What the shared state knows -/

section
variable {sys : System} {meets : System.World → Tid → Prop} {first : Config} {s : Store} {w : System.World}

/-- A config that passed every check, at the start or when the reload had read it. -/
def Accepted (sys : System) (first : Config) (log : List (Tid × Event Act.Res)) (config : Config) : Prop :=
  config = first ∧ config.validate sys.build sys.crates.parseUri = .ok () ∨
    Named sys.build sys.crates sys.configPath (Pool.own .reload log) config

theorem accepted_more {log : List (Tid × Event Act.Res)} {config : Config} (more : List (Tid × Event Act.Res))
    (accepted : Accepted sys first log config) : Accepted sys first (log ++ more) config := by
  refine accepted.imp_right fun named => ?_
  rw [Pool.own_append]
  exact named_append _ named

/-- What requests and probers read derives from configs that were accepted. -/
structure Known (sys : System) (first : Config) (log : List (Tid × Event Act.Res)) (s : Store) : Prop where
  config : Accepted sys first log s.config
  balancers : ∃ config base, Accepted sys first log config ∧ s.lbCache = buildLbMap base config
  probers : ∀ spec ∈ s.tasks.map (·.spec), ∃ config, Accepted sys first log config ∧ spec ∈ probeSpecs config

theorem started_known {plugins : Table String Plugins.Plugin}
    (valid : first.validate sys.build sys.crates.parseUri = .ok ()) :
    Known sys first [] (started sys.build first plugins) := by
  have accepted : Accepted sys first [] first := .inl ⟨rfl, valid⟩
  refine ⟨accepted, ⟨first, 0, accepted, rfl⟩, fun spec member => ⟨first, accepted, ?_⟩⟩
  obtain ⟨task, listed, rfl⟩ := List.mem_map.mp member
  obtain ⟨spec, named, rfl⟩ := List.mem_map.mp listed
  exact named

/-- The reload performs only what its contract allows. -/
theorem reload_put (reaches : sys.Reaches meets s w) {t : Tid} {a : Act} {next : a.Res → Program Unit}
    (head : w.threads t = .act a next) (role : a.role = .reload) :
    MayPut sys.build sys.crates sys.configPath (Pool.own .reload w.log) a := by
  obtain rfl := System.reload_only reaches head role
  have contract := System.own_keeps (t := .reload) (watchConfigSignal_puts sys.reloads []) reaches
  rw [head] at contract
  exact contract.1

theorem perform_spawned {crates : Crates} {o : Outside} {t : Tid} {spec : ProbeSpec} {r : Nat} {s s' : Store}
    (done : perform crates o t (.spawnProber spec) s = some (r, s')) :
    s'.tasks.map (·.spec) = s.tasks.map (·.spec) ++ [spec] := by
  unfold perform at done
  split at done
  · cases done
  · obtain ⟨-, rfl⟩ := Prod.mk.inj (Option.some.inj done)
    simp

theorem known_step {o : Outside} {t : Tid} {w₁ w₂ : System.World} (reaches : sys.Reaches meets s w₁)
    (known : Known sys first w₁.log w₁.state) (taken : Pool.step (perform sys.crates) o t w₁ = some w₂) :
    Known sys first w₂.log w₂.state := by
  obtain ⟨a, next, r, s', head, done, rfl⟩ := Pool.step_cases taken
  have put := reload_put reaches head
  have changes := perform_changes done
  refine ⟨?_, ?_, fun spec member => ?_⟩
  · rcases changes.config with same | ⟨-, rfl⟩
    · show Accepted sys first _ s'.config
      rw [same]
      exact accepted_more _ known.config
    · exact accepted_more _ (.inr (put rfl))
  · rcases changes.lbCache with same | rfl
    · obtain ⟨config, base, accepted, balancers⟩ := known.balancers
      exact ⟨config, base, accepted_more _ accepted, same.trans balancers⟩
    · obtain ⟨config, base, named, balancers⟩ := put rfl
      exact ⟨config, base, accepted_more _ (.inr named), balancers⟩
  · have listed : spec ∈ w₁.state.tasks.map (·.spec) ∨ a = .spawnProber spec := by
      by_cases spawns : ∃ spec, a = .spawnProber spec
      · obtain ⟨spawned, rfl⟩ := spawns
        have member : spec ∈ s'.tasks.map (·.spec) := member
        rw [perform_spawned done, List.mem_append, List.mem_singleton] at member
        exact member.imp_right fun same => by rw [same]
      · have kept := (perform_leaves done).specs fun spec same => spawns ⟨spec, same⟩
        exact .inl (kept ▸ member)
    rcases listed with earlier | rfl
    · obtain ⟨config, accepted, named⟩ := known.probers spec earlier
      exact ⟨config, accepted_more _ accepted, named⟩
    · obtain ⟨config, named, inside⟩ := put rfl
      exact ⟨config, accepted_more _ (.inr named), inside⟩

theorem reaches_known (start : Known sys first [] s) (reaches : sys.Reaches meets s w) :
    Known sys first w.log w.state :=
  Pool.reaches_invariant (fun w => Known sys first w.log w.state) start
    (fun _ _ _ _ before known _ taken => known_step before known taken) reaches

/-! ## What tasks have read -/

/-- Every event was answered in a state that knows accepted configs only. -/
theorem event_known (start : Known sys first [] s) (reaches : sys.Reaches meets s w) {t : Tid} {e : Event Act.Res}
    (member : (t, e) ∈ w.log) : ∃ (o : Outside) (w₁ : System.World) (s' : Store),
      Known sys first w₁.log w₁.state ∧ (∃ more, w.log = w₁.log ++ more) ∧
      perform sys.crates o t e.act w₁.state = some (e.answer, s') := by
  obtain ⟨before, after, logged⟩ := List.append_of_mem member
  have logged : w.log = (sys.world s).log ++ before ++ (t, e) :: after := logged
  obtain ⟨o, w₁, next, s', earlier, log, -, -, done⟩ := Pool.reaches_event reaches logged
  exact ⟨o, w₁, s', reaches_known start earlier, ⟨_, by rw [log]; exact logged⟩, done⟩

theorem config_read (start : Known sys first [] s) (reaches : sys.Reaches meets s w) {t : Tid} {config : Config}
    (read : (t, ⟨.readConfig, config⟩) ∈ w.log) : Accepted sys first w.log config := by
  obtain ⟨o, w₁, s', known, ⟨more, logged⟩, done⟩ := event_known start reaches read
  obtain ⟨rfl, -⟩ := perform_readConfig done
  rw [logged]
  exact accepted_more _ known.config

/-- A balancer is made of the last route of its name in an accepted config. -/
theorem balancer_read (start : Known sys first [] s) (reaches : sys.Reaches meets s w) {t : Tid} {name : String}
    {lb : LoadBalancer} (read : (t, ⟨.getBalancer name, some lb⟩) ∈ w.log) :
    ∃ config route, Accepted sys first w.log config ∧ Upstream.lastNamed config.route name = some route ∧
      ∀ addr, addr ∈ lb.upstreams.map (·.addr) ↔ addr ∈ Upstream.routeAddrs route := by
  obtain ⟨o, w₁, s', known, ⟨more, logged⟩, done⟩ := event_known start reaches read
  obtain ⟨config, base, accepted, balancers⟩ := known.balancers
  have found : w₁.state.lbCache.get name = some lb := (perform_getBalancer done).symm
  rw [balancers] at found
  obtain ⟨route, last, addrs⟩ := Upstream.buildLbMap_addrs found
  rw [logged]
  exact ⟨config, route, accepted_more _ accepted, last, addrs⟩

theorem spec_read (start : Known sys first [] s) (reaches : sys.Reaches meets s w) {t : Tid} {spec : ProbeSpec}
    (read : (t, ⟨.startProber, spec⟩) ∈ w.log) :
    ∃ config, Accepted sys first w.log config ∧ spec ∈ probeSpecs config := by
  obtain ⟨o, w₁, s', known, ⟨more, logged⟩, done⟩ := event_known start reaches read
  obtain ⟨n, -, found⟩ := PerRoute.perform_startProber done
  obtain ⟨config, accepted, named⟩ := known.probers spec (List.mem_of_getElem? found)
  rw [logged]
  exact ⟨config, accepted_more _ accepted, named⟩

/-! ## Every run -/

/-- What the accepted configs say of whom a task contacts next. A request is sent to an
    upstream that an accepted config, perhaps a later one than the request read, gives the
    name of the route that the request selected in the config that it read. -/
def Configured (sys : System) (first : Config) (before : List (Tid × Event Act.Res)) : Tid → Act → Prop
  | .request n, .sendRequest _ addr _ => ∃ read route config other, (.request n, ⟨.readConfig, read⟩) ∈ before ∧
    Accepted sys first before read ∧ Server.chooseRoute read (sys.req n).parts = some route ∧
    Accepted sys first before config ∧ Upstream.lastNamed config.route route.name = some other ∧
    addr ∈ Upstream.routeAddrs other
  | .request n, .spawnMirror _ addr _ => ∃ read route mirror, (.request n, ⟨.readConfig, read⟩) ∈ before ∧
    Accepted sys first before read ∧ Server.chooseRoute read (sys.req n).parts = some route ∧
    route.mirror = some mirror ∧ addr = mirror.addr
  | .prober _, .exchange timeout host port text => ∃ config, Accepted sys first before config ∧
    ∃ route ∈ config.route, ∃ hc, route.healthCheck = some hc ∧ ∃ addr ∈ PerRoute.addrs route,
      Probe addr hc.probePath (PerRoute.timeoutOf hc) (.exchange timeout host port text)
  | _, .sendRequest _ _ _ | _, .spawnMirror _ _ _ | _, .exchange _ _ _ _ => False
  | _, _ => True

/-- The route that a request serves is the one that the config it read selects, an accepted one. -/
theorem serving_accepted (start : Known sys first [] s) (reaches : sys.Reaches meets s w) {n : Nat}
    {route : RouteConfig} (serving : Serving sys.build (sys.req n) route (Pool.own (.request n) w.log)) :
    ∃ read, (.request n, ⟨.readConfig, read⟩) ∈ w.log ∧ Accepted sys first w.log read ∧
      Server.chooseRoute read (sys.req n).parts = some route := by
  obtain ⟨read, begun, choice⟩ := Option.bind_eq_some_iff.mp serving.1
  have logged := Pool.mem_own.mp (configOf_mem begun)
  exact ⟨read, logged, config_read start reaches logged, choice⟩

theorem attempt_configured (start : Known sys first [] s) (reaches : sys.Reaches meets s w) {n : Nat}
    {route : RouteConfig} {addr : String} (serving : Serving sys.build (sys.req n) route (Pool.own (.request n) w.log))
    (drawn : Drawn (Pool.own (.request n) w.log) route addr) (timeout : Duration) (out : Request UpstreamBody) :
    Configured sys first w.log (.request n) (.sendRequest timeout addr out) := by
  obtain ⟨read, begun, accepted, choice⟩ := serving_accepted start reaches serving
  obtain ⟨lb, looked, listed⟩ := drawn
  obtain ⟨config, other, later, last, addrs⟩ := balancer_read start reaches (Pool.mem_own.mp looked)
  exact ⟨read, route, config, other, begun, accepted, choice, later, last, (addrs addr).mp listed⟩

theorem probe_configured (start : Known sys first [] s) (reaches : sys.Reaches meets s w) {n : Nat} {timeout : Duration}
    {host : String} {port : Nat} {text : String}
    (asks : Asks (Pool.own (.prober n) w.log) (.exchange timeout host port text)) :
    Configured sys first w.log (.prober n) (.exchange timeout host port text) := by
  rcases asks with same | ⟨spec, told, probe⟩
  · cases same
  · obtain ⟨config, accepted, named⟩ := spec_read start reaches (Pool.mem_own.mp told)
    obtain ⟨route, listed, hc, check, inside, path, limit⟩ := PerRoute.probeSpecs_route named
    rw [path, limit] at probe
    exact ⟨config, accepted, route, listed, hc, check, spec.addr, inside, probe⟩

end

/-- In every run of any number of requests, reloads and probers that the start of an accepted
    config leads to: whatever is sent is sent where a config says so that was accepted before. -/
theorem contacts_configured (sys : System) (o : Outside) (first : Config) (s : Store) (w : System.World)
    (valid : first.validate sys.build sys.crates.parseUri = .ok ())
    (started : Pool.alone (perform sys.crates) o .main (Reload.start sys.build sys.crates first) Store.initial =
      some ((), s)) (reaches : sys.Reaches (fun _ _ => True) s w) (before after : List (Tid × Event Act.Res)) (t : Tid)
    (e : Event Act.Res) (logged : w.log = before ++ (t, e) :: after) : Configured sys first before t e.act := by
  obtain ⟨plugins, ends, -⟩ := alone_start sys.build sys.crates (o := o) first
  cases started.symm.trans ends
  have start : Known sys first [] (Rounds.started sys.build first plugins) := started_known valid
  obtain ⟨o, w₁, next, s', earlier, log, -, head, done⟩ := Pool.reaches_event reaches logged
  obtain rfl : w₁.log = before := log
  have only := Pool.reaches_only (Installing.program_only sys t) earlier
  rw [head] at only
  have role := only.1
  obtain ⟨a, r⟩ := e
  cases a with
  | sendRequest timeout addr out =>
    cases t with
    | request n =>
      have contract := System.own_keeps (sys.request_keeps n) earlier
      rw [head] at contract
      obtain ⟨route, body, serving, drawn, -⟩ := contract.1
      exact attempt_configured start earlier serving drawn timeout out
    | _ => cases role
  | spawnMirror timeout addr out =>
    cases t with
    | request n =>
      have contract := System.own_keeps (sys.request_keeps n) earlier
      rw [head] at contract
      obtain ⟨route, mirror, serving, mirrored, target, -⟩ := contract.1
      obtain ⟨read, begun, accepted, choice⟩ := serving_accepted start earlier serving
      exact ⟨read, route, mirror, begun, accepted, choice, mirrored, target⟩
    | _ => cases role
  | exchange timeout host port text =>
    cases t with
    | prober n =>
      have contract := System.own_keeps (t := .prober n) (prober_asks (sys.rounds n)) earlier
      rw [head] at contract
      exact probe_configured start earlier contract.1
    | _ => cases role
  | _ => cases t <;> trivial

/-- What the start of the old config leads to. -/
def oldStart : Store := started Lockstep.moving.build Lockstep.oldStore.config Table.empty

/-- A request that a reload overtakes is sent to the upstream of the later config. -/
theorem contacts_configured_overtaken :
    ∃ w before e after, Lockstep.moving.Reaches (fun _ _ => True) oldStart w ∧ w.log = before ++ e :: after ∧
      Lockstep.misdirected before e = true ∧
      Configured Lockstep.moving Lockstep.oldStore.config before e.1 e.2.act := by
  obtain ⟨w, reaches, shown⟩ := System.reaches_of_run Lockstep.moving (fun _ _ => true) Lockstep.overtaking
    oldStart (fun w => Pool.somewhere Lockstep.misdirected [] w.log) (by decide +kernel)
  have reaches := Pool.reaches_mono (fun _ _ _ => trivial) reaches
  obtain ⟨before, ⟨t, e⟩, after, logged, found⟩ := Pool.somewhere_split shown
  exact ⟨w, before, (t, e), after, reaches, logged, found,
    contacts_configured Lockstep.moving Samples.outside Lockstep.oldStore.config oldStart w (by decide +kernel) rfl
      reaches before after t e logged⟩

end Contacts
end Torana
