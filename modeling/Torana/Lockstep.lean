import Torana.Installing
import Torana.Samples

/-!
Config versions while reloads run. A request keeps the route that it selected and
looks the balancer up by the route's name before every attempt; a reload replaces
`lb_cache` before `config_handle`. The addresses that an attempt draws from are
those of the last route of that name in the config that the balancers belong to,
which need not be the config that the route was selected in.
-/
namespace Torana
open Http
open Config (RouteConfig)
open Upstream (LoadBalancer buildLbMap lastNamed routeAddrs)

namespace Lockstep
open Handling Installing

/-! ## The config that the balancers belong to -/

/-- The config that the reload is about to write, if it has replaced `lb_cache` for it. -/
def pendingConfig : Program Unit → Option Config
  | .act (.writePluginCache _) next => pendingConfig (next ())
  | .act (.writeConfig config) _ => some config
  | _ => none

/-- The config whose balancers `lb_cache` holds: between the writes of a reload it is
    the new one already. -/
def balancerConfig (w : System.World) : Config := (pendingConfig (w.threads .reload)).getD w.state.config

def Balances (config : Config) (cache : Table String LoadBalancer) : Prop := ∃ base, cache = buildLbMap base config

theorem pending_balances {build : Config.Build} {crates : Crates} (p : Program Unit) {phase : Phase} {s : Store}
    {past : History} (here : phase.holds Balances (fun _ _ => True) s)
    (outline : Outline Balances (fun _ _ => True) build crates (fun phase _ => phase = .settled) phase past p) :
    Balances ((pendingConfig p).getD s.config) s.lbCache := by
  induction p generalizing phase s past with
  | ret value =>
    cases outline
    exact here.1
  | act a next ih =>
    cases phase with
    | settled =>
      have settled : pendingConfig (.act a next) = none := by
        cases a <;> first | rfl | exact absurd rfl (outline.1.1 _) | exact absurd rfl (outline.1.2 _)
      rw [settled]
      exact here.1
    | balanced config =>
      have writes : if build.plugins then ∃ cache, a = .writePluginCache cache else a = .writeConfig config := outline.1
      split at writes
      · obtain ⟨cache, rfl⟩ := writes
        -- The write of `plugin_cache` always succeeds, so the outline goes on behind it.
        obtain ⟨phase, here', outline'⟩ := outline.2 Samples.outside s () { s with pluginCache := cache } here rfl
        have behind := ih () here' outline'
        exact behind
      · obtain rfl := writes
        exact here.1
    | filtered config =>
      cases outline.1
      exact here.1

/-- In every run the balancers are those of one config, the installed one or the one
    that the reload is about to write. -/
theorem reaches_balances {sys : System} {meets : System.World → Tid → Prop} {s : Store} {w : System.World}
    (start : Balances s.config s.lbCache) (reaches : sys.Reaches meets s w) :
    Balances (balancerConfig w) w.state.lbCache := by
  obtain ⟨phase, here, outline⟩ := reaches_phase sys Balances (fun _ _ => True) (fun base _ => ⟨base, rfl⟩)
    (fun _ _ _ _ => trivial) ⟨start, trivial⟩ reaches
  exact pending_balances _ here outline

/-! ## Attempts in step -/

/-- The balancer of the route's name draws from addresses of the route alone, and
    from none only when the route lists none. -/
def drawsFrom (config : Config) (route : RouteConfig) : Bool :=
  (lastNamed config.route route.name).any fun last =>
    (routeAddrs last).all (fun addr => addr ∈ routeAddrs route) && (routeAddrs last ≠ [] || routeAddrs route = [])

/-- A request that looks a balancer up does so while the config that the balancers
    belong to still gives the route's name addresses of the route. -/
def drawsInStep (sys : System) (w : System.World) (t : Tid) : Bool :=
  match t with
  | .request n =>
    match w.threads t, selected (sys.req n) (Pool.own t w.log) with
    | .act (.getBalancer _) _, some route => drawsFrom (balancerConfig w) route
    | _, _ => true
  | _ => true

/-- Every address that a request was sent to belongs to the route that it selected,
    and it was answered that there is no upstream only if the route lists none. -/
def OneVersion (sys : System) (w : System.World) : Prop :=
  ∀ before n e after route, w.log = before ++ (.request n, e) :: after →
    selected (sys.req n) (Pool.own (.request n) before) = some route →
    (∀ timeout addr out, e.act = .sendRequest timeout addr out → addr ∈ routeAddrs route) ∧
    ∀ resp, e.act = .respond resp → resp.body = noUpstreams → routeAddrs route = []

theorem drawsFrom_balancer {config : Config} {cache : Table String LoadBalancer} {route : RouteConfig}
    (balances : Balances config cache) (draws : drawsFrom config route = true) :
    ∃ lb, cache.get route.name = some lb ∧ (∀ addr ∈ lb.upstreams.map (·.addr), addr ∈ routeAddrs route) ∧
      (lb.upstreams = [] → routeAddrs route = []) := by
  obtain ⟨base, rfl⟩ := balances
  obtain ⟨last, named, within⟩ := (Option.any_eq_true _ _).mp draws
  simp only [Bool.and_eq_true, List.all_eq_true, decide_eq_true_eq, Bool.or_eq_true] at within
  obtain ⟨lb, found⟩ := Option.isSome_iff_exists.mp
    ((Upstream.buildLbMap_isSome base config route.name).trans (by rw [named]; rfl))
  obtain ⟨last', named', addrs⟩ := Upstream.buildLbMap_addrs found
  cases named.symm.trans named'
  refine ⟨lb, found, fun addr drawn => within.1 addr ((addrs addr).mp drawn), fun without => ?_⟩
  rcases within.2 with listed | empty
  · obtain ⟨addr, listed⟩ := List.exists_mem_of_ne_nil _ listed
    have drawn := (addrs addr).mpr listed
    rw [without] at drawn
    cases drawn
  · exact empty

section
variable {sys : System} {s : Store} {w : System.World}

/-- What a request that draws in step reads is a balancer over the route's addresses. -/
theorem getBalancer_in_step (start : Balances s.config s.lbCache)
    (reaches : sys.Reaches (fun w t => drawsInStep sys w t = true) s w) {n : Nat} {name : String}
    {r : Option LoadBalancer} (event : (.request n, ⟨.getBalancer name, r⟩) ∈ w.log) {route : RouteConfig}
    (choice : selected (sys.req n) (Pool.own (.request n) w.log) = some route) :
    ∃ lb, r = some lb ∧ (∀ addr ∈ lb.upstreams.map (·.addr), addr ∈ routeAddrs route) ∧
      (lb.upstreams = [] → routeAddrs route = []) := by
  obtain ⟨before, after, logged⟩ := List.append_of_mem event
  obtain ⟨o, w₁, next, s', reaches₁, rfl, inStep, head, done, may⟩ := System.request_event reaches logged
  obtain ⟨route', serving, same⟩ := may
  have here : selected (sys.req n) (Pool.own (.request n) w₁.log) = some route' := serving.1
  obtain rfl : route' = route := by
    rw [logged, Pool.own_append, selected_append _ serving.1] at choice
    exact Option.some.inj choice
  simp only [drawsInStep, head, here] at inStep
  obtain ⟨lb, found, within⟩ := drawsFrom_balancer (reaches_balances start reaches₁) inStep
  refine ⟨lb, ?_, within⟩
  rw [← same] at found
  exact (perform_getBalancer done).trans found

/-- In every run whose lookups are in step every request is served under one config. -/
theorem one_version_in_step (sys : System) (s : Store) (w : System.World) (start : Balances s.config s.lbCache)
    (reaches : sys.Reaches (fun w t => drawsInStep sys w t = true) s w) : OneVersion sys w := by
  intro before n e after route logged choice
  obtain ⟨o, w₁, next, s', reaches₁, rfl, _, head, _, may⟩ := System.request_event reaches logged
  constructor
  · intro timeout addr out act
    rw [act] at may
    obtain ⟨served, body, serving, ⟨lb, read, listed⟩, _⟩ := may
    cases choice.symm.trans serving.1
    obtain ⟨lb', same, within, _⟩ := getBalancer_in_step start reaches₁ (Pool.mem_own.mp read) choice
    cases same
    exact within addr listed
  · intro resp act failed
    rw [act] at may
    obtain ⟨served, selection, exhausted⟩ := may failed
    cases choice.symm.trans selection
    rcases exhausted with missing | ⟨lb, read, without⟩
    · obtain ⟨lb, same, _⟩ := getBalancer_in_step start reaches₁ (Pool.mem_own.mp missing) choice
      cases same
    · obtain ⟨lb', same, _, only⟩ := getBalancer_in_step start reaches₁ (Pool.mem_own.mp read) choice
      cases same
      exact only without

end

/-! ## A reload that points a route elsewhere -/

/-- The document of the config that points the route to another upstream. -/
def movedDocument : String :=
  "[[listener]]\naddr = \"0.0.0.0:8080\"\nprotocol = \"http\"\n" ++
    "[[route]]\nname = \"api\"\n[[route.upstream]]\naddr = \"http://10.0.0.2:80\"\n"

def oldRoute : RouteConfig := Samples.route "api" "http://10.0.0.1:80"

/-- One request and one reload, which installs the config with the other upstream. -/
def moving : System where
  build := Samples.build
  crates := Samples.crates movedDocument (Samples.config [Samples.route "api" "http://10.0.0.2:80"])
  configPath := "torana.toml"
  reloads := 1
  rounds _ := 0
  conn _ := Samples.conn
  req _ := Samples.get Multimap.empty

def oldStore : Store := Samples.store (Samples.config [oldRoute]) Table.empty

def reloading : Outside := { Samples.outside with text := .ok movedDocument }

/-- The request looks its balancer up before the reload replaces `lb_cache`. -/
def orderly : List (Tid × Outside) :=
  List.replicate 3 (.reload, reloading) ++ List.replicate 7 (.request 0, Samples.outside) ++
    List.replicate 4 (.reload, reloading)

def isSent (e : Tid × Event Act.Res) : Bool :=
  match e.2 with
  | ⟨.sendRequest _ _ _, _⟩ => true
  | _ => false

theorem one_version_in_step_orderly :
    ∃ w, moving.Reaches (fun w t => drawsInStep moving w t = true) oldStore w ∧ w.log.any isSent = true ∧
      OneVersion moving w := by
  obtain ⟨w, reaches, sent⟩ := System.reaches_of_run moving (drawsInStep moving) orderly oldStore
    (fun w => w.log.any isSent) (by decide +kernel)
  exact ⟨w, reaches, sent, one_version_in_step moving oldStore w ⟨0, rfl⟩ reaches⟩

/-- The request selects its route before the reload replaces `lb_cache` and looks its
    balancer up after. -/
def overtaking : List (Tid × Outside) :=
  List.replicate 2 (.request 0, Samples.outside) ++ List.replicate 4 (.reload, reloading) ++
    List.replicate 4 (.request 0, Samples.outside)

/-- The event sends request 0 to an address that its route does not list. -/
def misdirected (before : List (Tid × Event Act.Res)) : Tid × Event Act.Res → Bool
  | (.request 0, ⟨.sendRequest _ addr _, _⟩) =>
    selected (moving.req 0) (Pool.own (.request 0) before) = some oldRoute && addr ∉ routeAddrs oldRoute
  | _ => false

/-- A request is sent to an upstream of the new config for a route of the old one. -/
theorem overtaken_misdirected :
    ∃ w, moving.Reaches (fun _ _ => True) oldStore w ∧ Balances oldStore.config oldStore.lbCache ∧
      ¬ OneVersion moving w := by
  obtain ⟨w, reaches, shown⟩ := System.reaches_of_run moving (fun _ _ => true) overtaking oldStore
    (fun w => Pool.somewhere misdirected [] w.log) (by decide +kernel)
  refine ⟨w, Pool.reaches_mono (fun _ _ _ => trivial) reaches, ⟨0, rfl⟩, fun version => ?_⟩
  obtain ⟨before, ⟨t, e⟩, after, logged, found⟩ := Pool.somewhere_split shown
  rw [List.nil_append] at found
  unfold misdirected at found
  split at found
  · rename_i timeout addr out outcome same
    cases same
    simp only [Bool.and_eq_true, decide_eq_true_eq] at found
    obtain ⟨choice, foreign⟩ := found
    exact foreign ((version before 0 _ after oldRoute logged choice).1 timeout addr out rfl)
  · cases found

end Lockstep
end Torana
