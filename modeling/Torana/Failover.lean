import Torana.Retries
import Torana.Guarding

/-!
What retries and health checks promise together. A request is answered in a setting
that does not change meanwhile: one config, one balancer, one verdict of the registry
on every address, and healthy addresses that either refuse the connection or answer.
Other requests may move the counter between any two attempts.
-/
namespace Torana
open Http Proxy
open Config (RouteConfig Build)
open Upstream (LoadBalancer routePools routeAddrs)
open Prog (Runs Only)

namespace Failover
open Server Handling Ownership Retries

/-! ## Settings -/

/-- What stays as it is while one replayable request is handled. The healthy addresses
    that refuse the connection are fewer than the attempts of the route, and some
    healthy address does not. -/
structure Setting (build : Build) (crates : Crates) (conn : Conn) (req : Request Incoming) where
  config : Config
  route : RouteConfig
  cell : Nat
  health : String → Bool
  refuses : String → Bool
  chosen : chooseRoute config req.parts = some route
  replayable : bodyReplayable req = true
  sendable : ∀ addr ∈ routeAddrs route, health addr = true → ∀ body, ∃ out, prepareRequest crates.parseUri
    (attemptRequest conn route req.parts body) addr conn.clientAddr conn.clientProto = .ok out
  fits : (LoadBalancer.new (routePools route) cell).upstreams.length ≤ 2 ^ build.usizeBits
  live : ∃ addr ∈ routeAddrs route, health addr = true ∧ refuses addr = false
  few : ((routeAddrs route).dedup.filter fun addr => health addr && refuses addr).length < route.maxAttempts

namespace Setting
variable {build : Build} {crates : Crates} {conn : Conn} {req : Request Incoming}
  (setting : Setting build crates conn req)

/-- The balancer of the route. -/
def balancer : LoadBalancer := LoadBalancer.new (routePools setting.route) setting.cell

/-- The answer is one that the setting gives; what an unhealthy address answers is open. -/
def Gives : (a : Act) → a.Res → Prop
  | .readConfig, config => config = setting.config
  | .getBalancer name, found => name = setting.route.name → found = some setting.balancer
  | .fetchAdd _ bits, start => bits = build.usizeBits → start + setting.balancer.upstreams.length ≤ 2 ^ bits
  | .isHealthy addr, healthy => healthy = setting.health addr
  | .sendRequest _ addr _, outcome => setting.health addr = true →
    if setting.refuses addr then outcome = .failed true else ∃ resp, outcome = .responded resp
  | _, _ => True

/-- Everything in a history is as the setting gives it. -/
def Governs (past : History) : Prop := ∀ e ∈ past, setting.Gives e.act e.answer

end Setting

/-- A filter that is asked allows the request. -/
def Allows : (a : Act) → a.Res → Prop
  | .evaluate _ _ _, verdict => verdict = .allow
  | _, _ => True

/-- The filter did not deny the request. -/
def Admitted (past : History) : Prop := ∀ e ∈ past, Allows e.act e.answer

/-- The answer of an upstream, as it is passed on to the client. -/
def FromUpstream (route : RouteConfig) (past : History) (resp : Response ProxyBody) : Prop :=
  ∃ upstream, .responded upstream ∈ Attempts.outcomes past ∧ resp =
    ⟨upstream.status, overridden (stripHopByHop upstream.headers) route.headers.response, .streamed upstream.body⟩

section
variable {build : Build} {crates : Crates} {conn : Conn} {req : Request Incoming}
  {setting : Setting build crates conn req}

theorem governs_append {left right : History} :
    setting.Governs (left ++ right) ↔ setting.Governs left ∧ setting.Governs right := by
  unfold Setting.Governs
  simp only [List.mem_append, or_imp, forall_and]

theorem mem_balancer (addr : String) :
    addr ∈ setting.balancer.upstreams.map (·.addr) ↔ addr ∈ routeAddrs setting.route := by
  rw [Setting.balancer, Upstream.mem_schedule_addr, Upstream.routePools_addr]

/-- The addresses tried so far refused the connection. -/
structure Refused (setting : Setting build crates conn req) (tried : List String) : Prop where
  distinct : tried.Nodup
  refused : ∀ addr ∈ tried, addr ∈ routeAddrs setting.route ∧ setting.health addr = true ∧ setting.refuses addr = true

/-- There are always attempts left. -/
theorem refused_length {tried : List String} (refused : Refused setting tried) :
    tried.length < setting.route.maxAttempts := by
  have listed : tried ⊆
      (routeAddrs setting.route).dedup.filter fun addr => setting.health addr && setting.refuses addr := by
    intro addr member
    obtain ⟨inRoute, healthy, refuses⟩ := refused.refused addr member
    simp [inRoute, healthy, refuses]
  exact Nat.lt_of_le_of_lt (refused.distinct.subperm listed).length_le setting.few

/-- The balancer chooses a healthy address that was not tried. -/
theorem choice_untried {tried : List String} (refused : Refused setting tried) {choice : History}
    {addr : Option String} (run : Runs (pickUpstream build setting.route tried) choice (.ret addr))
    (governed : setting.Governs choice) :
    ∃ a, addr = some a ∧ a ∈ routeAddrs setting.route ∧ setting.health a = true ∧ a ∉ tried := by
  have found : ∀ lb, ⟨.getBalancer setting.route.name, lb⟩ ∈ choice → lb = some setting.balancer := by
    intro lb member
    exact governed _ member rfl
  obtain ⟨rfl, -⟩ | ⟨lb, call, picked, rfl, rfl, here⟩ := pickUpstream_runs run
  · cases found none List.mem_cons_self
  cases found (some lb) List.mem_cons_self
  obtain ⟨live, inRoute, healthy, answers⟩ := setting.live
  obtain ⟨u, scheduled, rfl⟩ := List.mem_map.mp ((mem_balancer live).mpr inRoute)
  have filled : setting.balancer.upstreams ≠ [] := List.ne_nil_of_mem scheduled
  obtain ⟨start, reads, rfl, -⟩ := Selection.nextHealthy_trace filled here
  have unwrapped : start + setting.balancer.upstreams.length ≤ 2 ^ build.usizeBits :=
    governed ⟨.fetchAdd setting.balancer.counter build.usizeBits, start⟩ (by simp) rfl
  have stable : Selection.ReadBy setting.health reads := by
    intro addr healthy member
    exact governed ⟨.isHealthy addr, healthy⟩ (by simp [member])
  have chooses := (Selection.nextHealthy_chooses filled (.inl unwrapped)).mp here
  have untried : u.addr ∉ tried := by
    intro member
    rw [(refused.refused u.addr member).2.2] at answers
    cases answers
  have candidate : u ∈ Selection.admitted tried (setting.balancer.upstreams.rotate start) :=
    Selection.mem_admitted.mpr ⟨List.mem_rotate.mpr scheduled, untried⟩
  obtain ⟨v, first⟩ : ∃ v, (Selection.admitted tried (setting.balancer.upstreams.rotate start)).find?
      (fun u => setting.health u.addr) = some v := by
    rw [← Option.isSome_iff_exists, List.find?_isSome]
    exact ⟨u, candidate, healthy⟩
  have chosen := Selection.chooses_stable stable chooses
  rw [first, Option.some_or] at chosen
  obtain ⟨member, fresh⟩ := Selection.mem_admitted.mp (List.mem_of_find?_eq_some first)
  have healthy : setting.health v.addr = true := by simpa using List.find?_some first
  refine ⟨v.addr, by rw [chosen]; rfl, ?_, healthy, fresh⟩
  exact (mem_balancer v.addr).mp (List.mem_map.mpr ⟨v, List.mem_rotate.mp member, rfl⟩)

/-- A replayable request gets all attempts of its route. -/
theorem attempts_allowed : effectiveAttempts setting.route req = setting.route.maxAttempts := by
  have positive := Config.maxAttempts_pos setting.route
  unfold effectiveAttempts canRetry
  rw [setting.replayable, Bool.and_true]
  split
  · rfl
  · rename_i single
    have : ¬ 1 < setting.route.maxAttempts := by simpa using single
    omega

theorem proxyRequest_runs {timeout : Config.Duration} {given out : Request UpstreamBody} {addr : String} {sent : History}
    {result : Outcome} (prepared : prepareRequest crates.parseUri given addr conn.clientAddr conn.clientProto = .ok out)
    (run : Runs (proxyRequest crates conn timeout given addr) sent (.ret result)) :
    ∃ outcome, sent = [⟨.sendRequest timeout addr out, outcome⟩] ∧ result = Attempts.returned outcome := by
  unfold proxyRequest at run
  rw [prepared] at run
  simp only at run
  rw [call, Prog.call_bind] at run
  obtain ⟨-, ends⟩ | ⟨outcome, rest, rfl, later⟩ := Prog.runs_act run
  · cases ends
  · refine ⟨outcome, ?_⟩
    cases outcome <;> obtain ⟨rfl, same⟩ := Prog.runs_ret.mp later <;> cases same <;> exact ⟨rfl, rfl⟩

theorem fromUpstream_prepend {route : RouteConfig} {later : History} {resp : Response ProxyBody} (before : History)
    (reached : FromUpstream route later resp) : FromUpstream route (before ++ later) resp := by
  obtain ⟨upstream, member, same⟩ := reached
  refine ⟨upstream, ?_, same⟩
  rw [Attempts.outcomes, List.filterMap_append]
  exact List.mem_append_right _ member

/-- The loop ends with the answer of an upstream: every attempt before it refused, and
    there are fewer of these than attempts. -/
theorem attempts_reach (remaining : Nat) {incoming : Option Incoming} {tried : List String} {trace : History}
    {resp : Response ProxyBody} (refused : Refused setting tried)
    (left : tried.length + remaining = effectiveAttempts setting.route req)
    (available : canRetry setting.route req = true ∨ incoming ≠ none)
    (run : Runs (attempts build crates conn setting.route req.parts (canRetry setting.route req) remaining incoming tried)
      trace (.ret resp)) (governed : setting.Governs trace) : FromUpstream setting.route trace resp := by
  induction remaining generalizing incoming tried trace with
  | zero =>
    have fewer := refused_length refused
    rw [← attempts_allowed] at fewer
    omega
  | succ remaining ih =>
    unfold attempts at run
    obtain ⟨choice, rest, addr, rfl, choosing, later⟩ := Prog.runs_bind.mp run
    obtain ⟨before, behind⟩ := governs_append.mp governed
    obtain ⟨a, rfl, inRoute, healthy, fresh⟩ := choice_untried refused choosing before
    obtain ⟨body, taken, -⟩ := takeBody_eq available
    simp only [taken, Prog.ret_bind] at later
    obtain ⟨sent, more, result, rfl, sending, ends⟩ := Prog.runs_bind.mp later
    obtain ⟨out, prepared⟩ := setting.sendable a inRoute healthy body
    obtain ⟨outcome, rfl, rfl⟩ := proxyRequest_runs prepared sending
    have given : if setting.refuses a then outcome = .failed true else ∃ resp, outcome = .responded resp :=
      behind ⟨.sendRequest (totalTimeout setting.route) a out, outcome⟩ (by simp) healthy
    apply fromUpstream_prepend
    cases refuses : setting.refuses a with
    | false =>
      obtain ⟨upstream, rfl⟩ : ∃ resp, outcome = .responded resp := by simpa [refuses] using given
      obtain ⟨rfl, same⟩ := Prog.runs_ret.mp ends
      cases same
      exact ⟨upstream, List.mem_cons_self, rfl⟩
    | true =>
      obtain rfl : outcome = .failed true := by simpa [refuses] using given
      have added : Refused setting (tried ++ [a]) := by
        refine ⟨List.Nodup.append refused.distinct (List.nodup_singleton a) ?_, ?_⟩
        · simpa using fresh
        · intro addr member
          rcases List.mem_append.mp member with earlier | last
          · exact refused.refused addr earlier
          · rw [List.mem_singleton.mp last]
            exact ⟨inRoute, healthy, refuses⟩
      have again : canRetry setting.route req = true := by
        have fewer := refused_length added
        rw [canRetry, setting.replayable, Bool.and_true, decide_eq_true_eq]
        simp only [List.length_append, List.length_singleton] at fewer
        omega
      rw [again] at ends ih
      apply fromUpstream_prepend
      refine ih added ?_ (.inl rfl) ends (governs_append.mp behind).2
      rw [List.length_append, List.length_singleton]
      omega

theorem forward_reach {trace : History} {resp : Response ProxyBody}
    (run : Runs (forward build crates conn setting.route req) trace (.ret resp)) (governed : setting.Governs trace) :
    FromUpstream setting.route trace resp := by
  obtain ⟨copied, rest, -, rfl, -, later⟩ := Prog.runs_bind.mp run
  apply fromUpstream_prepend
  refine attempts_reach _ ⟨List.nodup_nil, by simp⟩ ?_ (.inr (by simp)) later (governs_append.mp governed).2
  exact Nat.zero_add _

theorem serveRoute_reach {trace : History} {resp : Response ProxyBody}
    (run : Runs (serveRoute build crates conn setting.route req) trace (.ret resp)) (governed : setting.Governs trace)
    (admitted : Admitted trace) : FromUpstream setting.route trace resp := by
  obtain ⟨guarded, rest, plugin, rfl, -, later⟩ := Prog.runs_bind.mp run
  apply fromUpstream_prepend
  rw [call, Prog.call_bind] at later
  obtain ⟨-, ends⟩ | ⟨dropped, rest, rfl, behind⟩ := Prog.runs_act later
  · cases ends
  refine fromUpstream_prepend [⟨.dropConfig, dropped⟩] ?_
  obtain ⟨-, governed⟩ := governs_append.mp governed
  have governed : setting.Governs rest := fun e member => governed e (List.mem_cons_of_mem _ member)
  cases plugin with
  | none => exact forward_reach behind governed
  | some plugin =>
    simp only at behind
    rw [call, Prog.call_bind] at behind
    obtain ⟨-, ends⟩ | ⟨verdict, rest, rfl, last⟩ := Prog.runs_act behind
    · cases ends
    have allowed : verdict = .allow :=
      admitted ⟨.evaluate plugin req.parts.method.asStr req.parts.uri.path, verdict⟩ (by simp)
    subst allowed
    refine fromUpstream_prepend [⟨.evaluate plugin req.parts.method.asStr req.parts.uri.path, .allow⟩] ?_
    exact forward_reach last fun e member => governed e (List.mem_cons_of_mem _ member)

theorem handle_reach {trace : History} {resp : Response ProxyBody}
    (run : Runs (handle build crates conn req) trace (.ret resp)) (governed : setting.Governs trace)
    (admitted : Admitted trace) : FromUpstream setting.route trace resp := by
  unfold handle at run
  rw [call, Prog.call_bind] at run
  obtain ⟨-, ends⟩ | ⟨config, rest, rfl, later⟩ := Prog.runs_act run
  · cases ends
  obtain rfl : config = setting.config := governed ⟨.readConfig, config⟩ List.mem_cons_self
  rw [setting.chosen] at later
  refine fromUpstream_prepend [⟨.readConfig, setting.config⟩] ?_
  exact serveRoute_reach later (fun e member => governed e (List.mem_cons_of_mem _ member))
    (fun e member => admitted e (List.mem_cons_of_mem _ member))

/-! ## The request is answered -/

/-- The setting answers everything that the request performs. -/
theorem handle_answered (setting : Setting build crates conn req) :
    Only (fun a => ∃ r, setting.Gives a r ∧ Allows a r) (handle build crates conn req) := by
  refine Prog.only_of_keeps ?_ handle_keeps
  intro past a may
  cases a with
  | readConfig => exact ⟨setting.config, rfl, trivial⟩
  | dropConfig => exact ⟨(), trivial, trivial⟩
  | getPlugin path => exact ⟨none, trivial, trivial⟩
  | evaluate plugin method path => exact ⟨.allow, trivial, rfl⟩
  | subsecNanos => exact ⟨(0 : Nat), trivial, trivial⟩
  | spawnMirror timeout addr out => exact ⟨(), trivial, trivial⟩
  | mirrorFailed addr error => exact ⟨(), trivial, trivial⟩
  | getBalancer name => exact ⟨some setting.balancer, fun _ => rfl, trivial⟩
  | fetchAdd cell bits =>
    refine ⟨(0 : Nat), ?_, trivial⟩
    rintro rfl
    exact (Nat.zero_add _).trans_le setting.fits
  | isHealthy addr => exact ⟨setting.health addr, rfl, trivial⟩
  | sendRequest timeout addr out =>
    cases refuses : setting.refuses addr with
    | true => exact ⟨.failed true, fun _ => by simp [refuses], trivial⟩
    | false => exact ⟨.responded ⟨200, Multimap.empty, []⟩, fun _ => by simp [refuses], trivial⟩
  | failUnsent addr error => exact ⟨(), trivial, trivial⟩
  | respond resp => exact ⟨(), trivial, trivial⟩
  | _ => exact may.elim

end

/-- As long as the answers are those of the setting and no filter denies the request,
    `handle` can go on until it returns, and it returns the answer of an upstream. -/
theorem failover_reaches (build : Build) (crates : Crates) (conn : Conn) (req : Request Incoming)
    (setting : Setting build crates conn req) (trace : History) (q : Program (Response ProxyBody))
    (run : Runs (handle build crates conn req) trace q) (governed : setting.Governs trace) (admitted : Admitted trace) :
    (∀ resp, q = .ret resp → FromUpstream setting.route trace resp) ∧
      ∃ more resp, Runs q more (.ret resp) ∧ setting.Governs (trace ++ more) ∧ Admitted (trace ++ more) ∧
        FromUpstream setting.route (trace ++ more) resp := by
  constructor
  · rintro resp rfl
    exact handle_reach run governed admitted
  · obtain ⟨more, resp, rest, good⟩ := Prog.only_ends (Prog.only_runs (handle_answered setting) run)
    have governed : setting.Governs (trace ++ more) := governs_append.mpr ⟨governed, fun e member => (good e member).1⟩
    have admitted : Admitted (trace ++ more) := by
      intro e member
      exact (List.mem_append.mp member).elim (admitted e) fun behind => (good e behind).2
    exact ⟨more, resp, rest, governed, admitted, handle_reach (Prog.runs_append run rest) governed admitted⟩

/-! ## Two upstreams, the first of which refuses the connection -/

/-- A plain request can be built for an address that splits and whose parts are legal. -/
theorem samples_sendable (route : RouteConfig) (body : UpstreamBody) {addr host : String} {port : Nat} {uri : Uri}
    {value : HeaderValue} (split : upstreamHostPort addr = .ok (host, port))
    (parsed : Samples.parseUri s!"http://{host}:{port}/" = .ok uri)
    (legal : HeaderValue.fromStr s!"{host}:{port}" = some value) :
    ∃ out, prepareRequest Samples.unreloaded.parseUri
      (attemptRequest Samples.conn route (Samples.get Multimap.empty).parts body) addr Samples.conn.clientAddr
      Samples.conn.clientProto = .ok out :=
  ⟨_, prepareRequest_made _ _ rfl split parsed legal⟩

def pairSetting : Setting Samples.build Samples.unreloaded Samples.conn (Samples.get Multimap.empty) where
  config := Samples.config [Attempts.pairRoute]
  route := Attempts.pairRoute
  cell := 0
  health _ := true
  refuses addr := addr = "http://10.0.0.1:80"
  chosen := by decide +kernel
  replayable := by decide
  sendable := by
    intro addr member _ body
    rcases List.mem_cons.mp member with rfl | member
    · exact samples_sendable _ body rfl rfl rfl
    · rw [List.mem_singleton.mp member]
      exact samples_sendable _ body rfl rfl rfl
  fits := by decide
  live := ⟨"http://10.0.0.2:80", by decide, rfl, by decide⟩
  few := by decide

/-- The request is answered by the second upstream. -/
theorem failover_reaches_pair :
    ∃ trace resp, Runs (handle Samples.build Samples.unreloaded Samples.conn (Samples.get Multimap.empty)) trace
      (.ret resp) ∧ pairSetting.Governs trace ∧ FromUpstream Attempts.pairRoute trace resp := by
  obtain ⟨-, more, resp, run, governed, -, reached⟩ := failover_reaches Samples.build Samples.unreloaded Samples.conn
    (Samples.get Multimap.empty) pairSetting [] _ (.nil _) (by simp [Setting.Governs]) (by simp [Admitted])
  exact ⟨more, resp, run, governed, reached⟩

/-! ## A filter that denies -/

/-- The only upstream is healthy and answers. -/
def deniedSetting : Setting Samples.build Samples.unreloaded Samples.conn (Samples.get Multimap.empty) where
  config := Samples.config [Samples.guardedRoute]
  route := Samples.guardedRoute
  cell := 0
  health _ := true
  refuses _ := false
  chosen := by decide +kernel
  replayable := by decide
  sendable := by
    intro addr member _ body
    rw [List.mem_singleton.mp member]
    exact samples_sendable _ body rfl rfl rfl
  fits := by decide
  live := ⟨"http://10.0.0.1:80", by decide, rfl, rfl⟩
  few := by decide

/-- The plugin of the route was compiled from the module that denies every request. -/
def denyingAnswers : (a : Act) → Option a.Res := Samples.answers Samples.unreloaded (Guarding.guardedStore [])

theorem denying_gives {a : Act} {r : a.Res} (answered : denyingAnswers a = some r) : deniedSetting.Gives a r := by
  cases a with
  | readConfig =>
    cases answered
    rfl
  | getBalancer name =>
    cases answered
    rintro rfl
    rfl
  | fetchAdd cell bits =>
    cases answered
    rintro rfl
    show 0 + deniedSetting.balancer.upstreams.length ≤ 2 ^ Samples.build.usizeBits
    decide
  | isHealthy addr =>
    cases answered
    rfl
  | sendRequest timeout addr out =>
    cases answered
    intro _
    exact ⟨_, rfl⟩
  | _ => trivial

def deniedTrace : History × Program (Response ProxyBody) :=
  Prog.follow denyingAnswers (handle Samples.build Samples.unreloaded Samples.conn (Samples.get Multimap.empty))

/-- The request is denied and reaches no upstream. -/
theorem denied_unreached :
    ∃ trace resp, Runs (handle Samples.build Samples.unreloaded Samples.conn (Samples.get Multimap.empty)) trace
      (.ret resp) ∧ deniedSetting.Governs trace ∧ resp.status = 403 ∧
      ¬ FromUpstream deniedSetting.route trace resp := by
  have ends : deniedTrace.2 = .ret (errorResponse 403 "Denied by plugin") := rfl
  have run := Prog.runs_follow denyingAnswers
    (handle Samples.build Samples.unreloaded Samples.conn (Samples.get Multimap.empty))
  refine ⟨deniedTrace.1, errorResponse 403 "Denied by plugin", ends ▸ run, ?_, rfl, ?_⟩
  · exact fun e member => denying_gives (Prog.follow_answered member)
  · rintro ⟨upstream, member, -⟩
    have unattempted : (Attempts.outcomes deniedTrace.1).length = 0 := by decide +kernel
    rw [List.length_eq_zero_iff.mp unattempted] at member
    cases member

end Failover
end Torana
