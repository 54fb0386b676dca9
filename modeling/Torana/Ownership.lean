import Torana.Lockstep
import Torana.Attempts

/-!
Which upstreams a route sends to. `handle` selects a route value and looks its
balancer up by the route's name, under which `build_lb_map` keeps the balancer of
the last route of that name. Nothing in `validate` keeps two routes from having one
name; then the earlier route sends to the upstreams of the later one.
-/
namespace Torana
open Http
open Config (RouteConfig Build)
open Upstream (LoadBalancer UpstreamPool lastNamed routeAddrs)
open Prog (Runs follow follow_bind follow_call_bind follow_ends runs_follow)

namespace Ownership
open Server Handling Lockstep

/-- What the history read of `config_handle` and `lb_cache` is what they hold. -/
structure ReadsOf (s : Store) (trace : History) : Prop where
  config : ∀ config, ⟨.readConfig, config⟩ ∈ trace → config = s.config
  balancer : ∀ name lb, ⟨.getBalancer name, lb⟩ ∈ trace → lb = s.lbCache.get name

/-- The address that an attempt takes from the balancer, whether or not it can be sent to. -/
def tries : Act → Option String
  | .sendRequest _ addr _ | .failUnsent addr _ => some addr
  | _ => none

/-- Against these stores the request takes addresses of the route only, and all of
    them are in the schedule that it draws from. -/
structure Owns (build : Build) (crates : Crates) (conn : Conn) (req : Request Incoming) (s : Store)
    (route : RouteConfig) : Prop where
  drawn : ∀ trace q, Runs (handle build crates conn req) trace q → ReadsOf s trace →
    ∀ e ∈ trace, ∀ addr, tries e.act = some addr → addr ∈ routeAddrs route
  scheduled : ∀ addr ∈ routeAddrs route, ∃ lb, s.lbCache.get route.name = some lb ∧
    addr ∈ lb.upstreams.map (·.addr)

section
variable {build : Build} {crates : Crates} {conn : Conn} {req : Request Incoming} {route : RouteConfig} {s : Store}

theorem follow_reads {answer : (a : Act) → Option a.Res} {α : Type} (config : answer .readConfig = some s.config)
    (balancer : ∀ name, answer (.getBalancer name) = some (s.lbCache.get name)) (p : Program α) :
    ReadsOf s (follow answer p).1 := by
  constructor
  · intro read event
    exact (Option.some.inj (config.symm.trans (Prog.follow_answered event))).symm
  · intro name lb event
    exact (Option.some.inj ((balancer name).symm.trans (Prog.follow_answered event))).symm

/-- Every address that is tried comes from the balancer under the route's name. -/
theorem tried_scheduled (choice : chooseRoute s.config req.parts = some route) {trace : History}
    {q : Program (Response ProxyBody)} (run : Runs (handle build crates conn req) trace q) (reads : ReadsOf s trace)
    {e : Event Act.Res} (member : e ∈ trace) {addr : String} (tried : tries e.act = some addr) :
    ∃ lb, s.lbCache.get route.name = some lb ∧ addr ∈ lb.upstreams.map (·.addr) := by
  obtain ⟨before, after, rfl⟩ := List.append_of_mem member
  have may := Prog.keeps_event handle_keeps run
  have drawn : ∃ served, selected req before = some served ∧ Drawn before served addr := by
    cases act : e.act with
    | sendRequest timeout addr' out =>
      rw [act] at may tried
      cases tried
      obtain ⟨served, body, serving, drawn, _⟩ := may
      exact ⟨served, serving.1, drawn⟩
    | failUnsent addr' error =>
      rw [act] at may tried
      cases tried
      obtain ⟨served, serving, drawn⟩ := may
      exact ⟨served, serving.1, drawn⟩
    | _ =>
      rw [act] at tried
      cases tried
  obtain ⟨served, selection, lb, read, listed⟩ := drawn
  obtain ⟨config, first, chosen⟩ := Option.bind_eq_some_iff.mp selection
  have same : config = s.config := reads.config config (List.mem_append_left _ (configOf_mem first))
  rw [same, choice] at chosen
  cases chosen
  exact ⟨lb, (reads.balancer _ _ (List.mem_append_left _ read)).symm, listed⟩

/-! ## Every scheduled address is drawn -/

/-- Answers from the stores while every upstream is unhealthy and the counters stand
    at `i`; no plugin is found, and every attempt runs out of time. -/
def unhealthy (s : Store) (i : Nat) : (a : Act) → Option a.Res
  | .readConfig => some s.config
  | .getBalancer name => some (s.lbCache.get name)
  | .getPlugin _ => some none
  | .fetchAdd _ _ => some i
  | .isHealthy _ => some false
  | .subsecNanos => some 0
  | .sendRequest _ _ _ => some .elapsed
  | .dropConfig | .spawnMirror _ _ _ | .mirrorFailed _ _ | .failUnsent _ _ => some ()
  | _ => none

theorem firstHealthy_unhealthy (i : Nat) (exclude : List String) (candidates : List UpstreamPool) :
    (follow (unhealthy s i) (LoadBalancer.firstHealthy exclude candidates)).2 = .ret none := by
  induction candidates with
  | nil => rfl
  | cons candidate rest ih =>
    unfold LoadBalancer.firstHealthy
    split
    · exact ih
    · exact ih

/-- When no upstream is healthy, the balancer falls back on the one that its counter stands at. -/
theorem nextHealthy_unhealthy (lb : LoadBalancer) (bits : Nat) (exclude : List String) {i : Nat}
    (inside : i < lb.upstreams.length) :
    (follow (unhealthy s i) (lb.nextHealthy bits exclude)).2 = .ret lb.upstreams[i]? := by
  have nonempty : lb.upstreams ≠ [] := List.ne_nil_of_length_pos (by omega)
  have counter : unhealthy s i (.fetchAdd lb.counter bits) = some i := rfl
  unfold LoadBalancer.nextHealthy
  rw [if_neg nonempty, follow_call_bind counter, follow_bind (firstHealthy_unhealthy i exclude _),
    follow_bind (firstHealthy_unhealthy i [] _), Nat.mod_eq_of_lt inside]
  rfl

theorem pickUpstream_unhealthy (tried : List String) {lb : LoadBalancer} (found : s.lbCache.get route.name = some lb)
    {i : Nat} (inside : i < lb.upstreams.length) :
    (follow (unhealthy s i) (pickUpstream build route tried)).2 = .ret (some lb.upstreams[i].addr) := by
  have answered : unhealthy s i (.getBalancer route.name) = some (some lb) := congrArg some found
  unfold pickUpstream
  rw [follow_call_bind answered]
  simp only
  rw [follow_bind (nextHealthy_unhealthy lb build.usizeBits tried inside), List.getElem?_eq_getElem inside]
  rfl

/-- The first attempt tries the upstream that its balancer falls back on. -/
theorem attempts_unhealthy (build : Build) (crates : Crates) (conn : Conn) {lb : LoadBalancer}
    (found : s.lbCache.get route.name = some lb) {i : Nat}
    (inside : i < lb.upstreams.length) (parts : Parts) (retry : Bool) (remaining : Nat) (body : Incoming) :
    ∃ e ∈ (follow (unhealthy s i) (attempts build crates conn route parts retry (remaining + 1) (some body) [])).1,
      tries e.act = some lb.upstreams[i].addr := by
  have available : retry = true ∨ some body ≠ none := .inr (by simp)
  obtain ⟨taken, takes, _⟩ := takeBody_eq available
  unfold attempts
  rw [follow_bind (pickUpstream_unhealthy [] found inside)]
  simp only [takes, Prog.ret_bind]
  unfold proxyRequest
  split
  · rename_i e _
    exact ⟨⟨.failUnsent lb.upstreams[i].addr e, ()⟩, List.mem_append_right _ List.mem_cons_self, rfl⟩
  · rename_i out _
    exact ⟨⟨.sendRequest (totalTimeout route) lb.upstreams[i].addr out, .elapsed⟩,
      List.mem_append_right _ List.mem_cons_self, rfl⟩

theorem handle_unhealthy (build : Build) (crates : Crates) (conn : Conn)
    (choice : chooseRoute s.config req.parts = some route) {lb : LoadBalancer}
    (found : s.lbCache.get route.name = some lb) {i : Nat} (inside : i < lb.upstreams.length) :
    ∃ e ∈ (follow (unhealthy s i) (handle build crates conn req)).1, tries e.act = some lb.upstreams[i].addr := by
  have config : unhealthy s i .readConfig = some s.config := rfl
  have dropped : unhealthy s i .dropConfig = some () := rfl
  have filtered : (follow (unhealthy s i) (readPlugin build route)).2 = .ret none := by
    unfold readPlugin
    split
    · split <;> rfl
    · rfl
  have answers : ∀ a, Attempts.Mirrors a → ∃ r, unhealthy s i a = some r := by
    intro a mirrors
    cases mirrors <;> exact ⟨_, rfl⟩
  obtain ⟨⟨⟩, mirrored⟩ := follow_ends answers
    (Prog.only_of_keeps (fun _ _ mirrors => mirrors) (Attempts.mirrorCopy_mirrors crates conn route req []))
  have positive : ∃ remaining, effectiveAttempts route req = remaining + 1 :=
    Nat.exists_eq_succ_of_ne_zero (Nat.one_le_iff_ne_zero.mp Attempts.effectiveAttempts_pos)
  obtain ⟨remaining, attempted⟩ := positive
  obtain ⟨e, member, tried⟩ := attempts_unhealthy build crates conn found inside req.parts (canRetry route req)
    remaining req.body
  refine ⟨e, ?_, tried⟩
  unfold handle
  rw [follow_call_bind config]
  simp only [choice]
  unfold serveRoute
  rw [follow_bind filtered, follow_call_bind dropped]
  simp only
  unfold forward
  rw [follow_bind mirrored, attempted]
  simp [member]

/-- In balancers of one config, the route sends to its own upstreams and to all of
    them exactly when the last route of its name lists the same addresses. -/
theorem owns_balances (balances : Balances s.config s.lbCache)
    (choice : chooseRoute s.config req.parts = some route) :
    Owns build crates conn req s route ↔ ∃ last, lastNamed s.config.route route.name = some last ∧
      ∀ addr, addr ∈ routeAddrs last ↔ addr ∈ routeAddrs route := by
  obtain ⟨base, cached⟩ := balances
  obtain ⟨last, named⟩ := Upstream.lastNamed_isSome (Routing.selectRoute_mem choice)
  have present : ∃ lb, s.lbCache.get route.name = some lb := by
    rw [← Option.isSome_iff_exists, cached, Upstream.buildLbMap_isSome, named]
    rfl
  obtain ⟨lb, found⟩ := present
  have schedule : ∀ addr, addr ∈ lb.upstreams.map (·.addr) ↔ addr ∈ routeAddrs last := by
    rw [cached] at found
    obtain ⟨last', named', listed⟩ := Upstream.buildLbMap_addrs found
    cases named.symm.trans named'
    exact listed
  constructor
  · intro owns
    refine ⟨last, named, fun addr => ⟨fun listed => ?_, fun listed => ?_⟩⟩
    · obtain ⟨u, member, rfl⟩ := List.mem_map.mp ((schedule addr).mpr listed)
      obtain ⟨i, inside, rfl⟩ := List.getElem_of_mem member
      obtain ⟨e, event, tried⟩ := handle_unhealthy build crates conn choice found inside
      exact owns.drawn _ _ (runs_follow _ _) (follow_reads rfl (fun _ => rfl) _) e event _ tried
    · obtain ⟨lb', found', scheduled⟩ := owns.scheduled addr listed
      cases found.symm.trans found'
      exact (schedule addr).mp scheduled
  · rintro ⟨last', named', same⟩
    cases named.symm.trans named'
    constructor
    · intro trace q run reads e member addr tried
      obtain ⟨lb', found', scheduled⟩ := tried_scheduled choice run reads member tried
      cases found.symm.trans found'
      exact (same addr).mp ((schedule addr).mp scheduled)
    · exact fun addr listed => ⟨lb, found, (schedule addr).mpr ((same addr).mpr listed)⟩

end

/-- In every state that is reached and in which no reload is between its writes, the
    route that a request selects sends to its own upstreams and to all of them exactly
    when the last route of its name lists the same addresses. -/
theorem selected_owns_iff (sys : System) (s : Store) (w : System.World) (start : Balances s.config s.lbCache)
    (reaches : sys.Reaches (fun _ _ => True) s w) (idle : pendingConfig (w.threads .reload) = none) (conn : Conn)
    (req : Request Incoming) (route : RouteConfig) (choice : chooseRoute w.state.config req.parts = some route) :
    Owns sys.build sys.crates conn req w.state route ↔
      ∃ last, lastNamed w.state.config.route route.name = some last ∧
        ∀ addr, addr ∈ routeAddrs last ↔ addr ∈ routeAddrs route := by
  have balances := reaches_balances start reaches
  rw [balancerConfig, idle] at balances
  exact owns_balances balances choice

/-! ## Routes that share a name -/

/-- After the reload of `moving` the route owns its new upstream. -/
theorem selected_owns_iff_moved :
    ∃ w route, moving.Reaches (fun _ _ => True) oldStore w ∧ w.state.config ≠ oldStore.config ∧
      chooseRoute w.state.config (moving.req 0).parts = some route ∧
      Owns moving.build moving.crates Samples.conn (moving.req 0) w.state route := by
  obtain ⟨w, reaches, ended⟩ := System.reaches_of_run moving (fun _ _ => true)
    (List.replicate 7 (.reload, reloading)) oldStore
    (fun w => pendingConfig (w.threads .reload) = none &&
      w.state.config = Samples.config [Samples.route "api" "http://10.0.0.2:80"]) (by decide +kernel)
  simp only [Bool.and_eq_true, decide_eq_true_eq] at ended
  obtain ⟨idle, config⟩ := ended
  have reaches := Pool.reaches_mono (fun _ _ _ => trivial) reaches
  have choice : chooseRoute w.state.config (moving.req 0).parts = some (Samples.route "api" "http://10.0.0.2:80") := by
    rw [config]
    decide +kernel
  refine ⟨w, _, reaches, by rw [config]; decide, choice, ?_⟩
  refine (selected_owns_iff moving oldStore w ⟨0, rfl⟩ reaches idle Samples.conn (moving.req 0) _ choice).mpr ?_
  rw [config]
  exact ⟨Samples.route "api" "http://10.0.0.2:80", by decide +kernel, fun addr => Iff.rfl⟩

/-- Two routes of one name, for different hosts. -/
def firstRoute : RouteConfig := { Samples.route "web" "http://10.0.0.1:80" with host := some "a.example.com" }
def secondRoute : RouteConfig := { Samples.route "web" "http://10.0.0.2:80" with host := some "b.example.com" }

def sharedConfig : Config := Samples.config [firstRoute, secondRoute]

def sharedStore : Store := Samples.store sharedConfig Table.empty

def hostValue : HeaderValue := ⟨Text.asBytes "a.example.com".toList, by decide⟩

def hosted : Request Incoming := Samples.get (Samples.field .host hostValue)

/-- What a request for the first host performs. -/
def sharedTrace : History × Program (Response ProxyBody) :=
  follow (Samples.answers Samples.unreloaded sharedStore)
    (handle Samples.build Samples.unreloaded Samples.conn hosted)

/-- An accepted config whose first route sends to the upstream of the second. -/
theorem shared_name_misdirected :
    sharedConfig.validate Samples.build Samples.unreloaded.parseUri = .ok () ∧
      Balances sharedStore.config sharedStore.lbCache ∧
      chooseRoute sharedStore.config hosted.parts = some firstRoute ∧
      ¬ Owns Samples.build Samples.unreloaded Samples.conn hosted sharedStore firstRoute := by
  refine ⟨by decide +kernel, ⟨0, rfl⟩, by decide +kernel, fun owns => ?_⟩
  have shown : sharedTrace.1.any (fun e => (tries e.act).any fun addr => addr = "http://10.0.0.2:80") = true := by
    decide +kernel
  obtain ⟨e, member, tried⟩ := List.any_eq_true.mp shown
  obtain ⟨addr, there, foreign⟩ := (Option.any_eq_true _ _).mp tried
  obtain rfl := of_decide_eq_true foreign
  have reads : ReadsOf sharedStore sharedTrace.1 := follow_reads rfl (fun _ => rfl) _
  exact absurd (owns.drawn _ _ (runs_follow _ _) reads e member _ there) (by decide)

end Ownership
end Torana
