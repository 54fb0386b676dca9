import Torana.Server

/-!
What one request performs, as a contract over its own history: which route it
serves, what has passed the filter, which upstreams its attempts go to and what
every request that leaves is made of. Nothing is assumed about the answers.
-/
namespace Torana
open Http Proxy
open Config (RouteConfig Build)
open Upstream (LoadBalancer UpstreamPool)
open Prog (Keeps keeps_bind keeps_call_bind keeps_mono keeps_stable)

/-- What one task performed so far. -/
abbrev History := List (Event Act.Res)

namespace Handling
open Server

/-! ## What a history says -/

/-- The config that a request read first. -/
def configOf : History → Option Config
  | ⟨.readConfig, config⟩ :: _ => some config
  | _ => none

/-- The route that a request selected. -/
def selected (req : Request Incoming) (past : History) : Option RouteConfig :=
  (configOf past).bind fun config => chooseRoute config req.parts

/-- The plugin of the route allowed the request, or none was found for it. -/
def Filtered (build : Build) (req : Request Incoming) (past : History) (route : RouteConfig) : Prop :=
  build.plugins = true → ∀ path, route.plugin = some path →
    ⟨.getPlugin path, none⟩ ∈ past ∨ ∃ plugin, ⟨.getPlugin path, some plugin⟩ ∈ past ∧
      ⟨.evaluate plugin req.parts.method.asStr req.parts.uri.path, .allow⟩ ∈ past

/-- The request may be sent on behalf of the route. -/
def Serving (build : Build) (req : Request Incoming) (route : RouteConfig) (past : History) : Prop :=
  selected req past = some route ∧ Filtered build req past route

/-- The address is one of a balancer that the request read for the route. -/
def Drawn (past : History) (route : RouteConfig) (addr : String) : Prop :=
  ∃ lb, ⟨.getBalancer route.name, some lb⟩ ∈ past ∧ addr ∈ lb.upstreams.map (·.addr)

/-- The request found no balancer for the route, or one without upstreams. -/
def Exhausted (past : History) (route : RouteConfig) : Prop :=
  ⟨.getBalancer route.name, none⟩ ∈ past ∨ ∃ lb, ⟨.getBalancer route.name, some lb⟩ ∈ past ∧ lb.upstreams = []

/-- The answer of a request that found no upstream. -/
def noUpstreams : ProxyBody := .text "Bad Gateway: no upstreams available"

section
variable (build : Build) (crates : Crates) (conn : Conn) (req : Request Incoming)

/-- What a request may perform after a history. -/
def May (past : History) : Act → Prop
  | .readConfig => past = []
  | .getPlugin path => ∃ config route, past = [⟨.readConfig, config⟩] ∧ selected req past = some route ∧
      build.plugins = true ∧ route.plugin = some path
  | .dropConfig | .evaluate _ _ _ | .subsecNanos | .mirrorFailed _ _ | .fetchAdd _ _ | .isHealthy _ => past ≠ []
  | .spawnMirror _ addr out => ∃ route mirror, Serving build req route past ∧ route.mirror = some mirror ∧
      addr = mirror.addr ∧ prepareRequest crates.parseUri (buildRequest req.parts .empty) addr conn.clientAddr
        conn.clientProto = .ok out
  | .getBalancer name => ∃ route, Serving build req route past ∧ name = route.name
  | .sendRequest _ addr out => ∃ route body, Serving build req route past ∧ Drawn past route addr ∧
      prepareRequest crates.parseUri (attemptRequest conn route req.parts body) addr conn.clientAddr
        conn.clientProto = .ok out
  | .failUnsent addr _ => ∃ route, Serving build req route past ∧ Drawn past route addr
  | .respond resp => resp.body = noUpstreams → ∃ route, selected req past = some route ∧ Exhausted past route
  | _ => False

end

/-! ## What more events leave as it was -/

theorem configOf_mem {past : History} {config : Config} (read : configOf past = some config) :
    ⟨.readConfig, config⟩ ∈ past := by
  cases past with
  | nil => cases read
  | cons first rest =>
    obtain ⟨a, r⟩ := first
    cases a <;> cases read
    exact List.mem_cons_self

theorem configOf_append {past : History} (more : History) {config : Config} (read : configOf past = some config) :
    configOf (past ++ more) = some config := by
  cases past with
  | nil => cases read
  | cons first rest =>
    obtain ⟨a, r⟩ := first
    cases a <;> exact read

theorem selected_append {req : Request Incoming} {past : History} (more : History) {route : RouteConfig}
    (found : selected req past = some route) : selected req (past ++ more) = some route := by
  obtain ⟨config, read, choice⟩ := Option.bind_eq_some_iff.mp found
  rw [selected, configOf_append more read]
  exact choice

theorem filtered_append {build : Build} {req : Request Incoming} {past : History} (more : History)
    {route : RouteConfig} (passed : Filtered build req past route) : Filtered build req (past ++ more) route := by
  intro plugins path guarded
  rcases passed plugins path guarded with absent | ⟨plugin, read, allowed⟩
  · exact .inl (List.mem_append_left _ absent)
  · exact .inr ⟨plugin, List.mem_append_left _ read, List.mem_append_left _ allowed⟩

theorem serving_append {build : Build} {req : Request Incoming} {route : RouteConfig} {past : History}
    (more : History) (serving : Serving build req route past) : Serving build req route (past ++ more) :=
  ⟨selected_append more serving.1, filtered_append more serving.2⟩

theorem serving_ne_nil {build : Build} {req : Request Incoming} {route : RouteConfig} {past : History}
    (serving : Serving build req route past) : past ≠ [] := by
  rintro rfl
  cases serving.1

/-! ## The parts of a request -/

/-- The actions of choosing an upstream. -/
def Chooses (a : Act) : Prop := (∃ counter bits, a = .fetchAdd counter bits) ∨ ∃ addr, a = .isHealthy addr

theorem candidates_mem {lb : LoadBalancer} {bits start : Nat} {u : UpstreamPool}
    (member : u ∈ lb.candidates bits start) : u ∈ lb.upstreams := by
  obtain ⟨i, _, found⟩ := List.mem_filterMap.mp member
  exact List.mem_of_getElem? found

theorem firstHealthy_keeps (exclude : List String) (candidates : List UpstreamPool) (past : History) :
    Keeps (fun _ => Chooses) (fun _ found => ∀ u, found = some u → u ∈ candidates) past
      (LoadBalancer.firstHealthy exclude candidates) := by
  induction candidates generalizing past with
  | nil =>
    intro u found
    cases found
  | cons candidate rest ih =>
    have later : ∀ past : History, Keeps (fun _ => Chooses)
        (fun _ found => ∀ u, found = some u → u ∈ candidate :: rest) past (LoadBalancer.firstHealthy exclude rest) :=
      fun past => keeps_mono (fun _ _ may => may)
        (fun _ _ listed u found => List.mem_cons_of_mem _ (listed u found)) (ih past)
    unfold LoadBalancer.firstHealthy
    split
    · exact later past
    · refine keeps_call_bind.mpr ⟨.inr ⟨_, rfl⟩, fun healthy => ?_⟩
      cases healthy
      · exact later _
      · intro u found
        cases found
        exact List.mem_cons_self

/-- A balancer chooses one of its upstreams, and none only when it has none. -/
theorem nextHealthy_keeps (lb : LoadBalancer) (bits : Nat) (exclude : List String) (past : History) :
    Keeps (fun _ => Chooses)
      (fun _ found => (∀ u, found = some u → u ∈ lb.upstreams) ∧ (found = none → lb.upstreams = [])) past
      (lb.nextHealthy bits exclude) := by
  unfold LoadBalancer.nextHealthy
  split
  · rename_i without
    exact ⟨by simp, fun _ => without⟩
  · rename_i nonempty
    refine keeps_call_bind.mpr ⟨.inl ⟨_, _, rfl⟩, fun start => ?_⟩
    refine keeps_bind.mpr (keeps_mono (fun _ _ may => may) ?_ (firstHealthy_keeps _ _ _))
    intro past first listed
    cases first with
    | some candidate => exact ⟨fun u found => candidates_mem (listed u found), by simp⟩
    | none =>
      refine keeps_bind.mpr (keeps_mono (fun _ _ may => may) ?_ (firstHealthy_keeps _ _ _))
      intro past second listed
      cases second with
      | some candidate => exact ⟨fun u found => candidates_mem (listed u found), by simp⟩
      | none =>
        refine ⟨fun u found => List.mem_of_getElem? found, fun missing => ?_⟩
        have positive : 0 < lb.upstreams.length := List.length_pos_iff.mpr nonempty
        have inside := Nat.mod_lt start positive
        have beyond := List.getElem?_eq_none_iff.mp missing
        omega

section
variable {build : Build} {crates : Crates} {conn : Conn} {req : Request Incoming} {route : RouteConfig}

/-- One attempt's address comes from a balancer of the route. -/
theorem pickUpstream_keeps (tried : List String) {past : History} (serving : Serving build req route past) :
    Keeps (May build crates conn req)
      (fun past addr => Serving build req route past ∧ (∀ a, addr = some a → Drawn past route a) ∧
        (addr = none → Exhausted past route)) past (pickUpstream build route tried) := by
  refine keeps_call_bind.mpr ⟨⟨route, serving, rfl⟩, fun found => ?_⟩
  have served := serving_append [⟨.getBalancer route.name, found⟩] serving
  cases found with
  | none => exact ⟨served, by simp, fun _ => .inl (by simp)⟩
  | some lb =>
    refine keeps_bind.mpr (keeps_mono (fun _ _ may => may) ?_
      (keeps_stable (fun past => Serving build req route past ∧ ⟨.getBalancer route.name, some lb⟩ ∈ past)
        ?_ ?_ (nextHealthy_keeps lb build.usizeBits tried past) ⟨served, by simp⟩))
    · rintro past chosen ⟨⟨serving, read⟩, listed, without⟩
      refine ⟨serving, fun a same => ?_, fun missing => .inr ⟨lb, read, without (by simpa using missing)⟩⟩
      obtain ⟨u, found, rfl⟩ := Option.map_eq_some_iff.mp same
      exact ⟨lb, read, List.mem_map.mpr ⟨u, listed u found, rfl⟩⟩
    · rintro past a r ⟨serving, read⟩ _
      exact ⟨serving_append _ serving, List.mem_append_left _ read⟩
    · rintro past a ⟨serving, _⟩ (⟨counter, bits, rfl⟩ | ⟨addr, rfl⟩)
      · exact serving_ne_nil serving
      · exact serving_ne_nil serving

theorem proxyRequest_keeps (body : UpstreamBody) {addr : String} {past : History}
    (serving : Serving build req route past) (drawn : Drawn past route addr) :
    Keeps (May build crates conn req) (fun past _ => Serving build req route past) past
      (proxyRequest crates conn (totalTimeout route) (attemptRequest conn route req.parts body) addr) := by
  unfold proxyRequest
  split
  · exact keeps_call_bind.mpr ⟨⟨route, serving, drawn⟩, fun _ => serving_append _ serving⟩
  · rename_i out prepared
    refine keeps_call_bind.mpr ⟨⟨route, body, serving, drawn, prepared⟩, fun outcome => ?_⟩
    cases outcome <;> exact serving_append _ serving

/-- What an answer says about the history. -/
def Answers (req : Request Incoming) (past : History) (resp : Response ProxyBody) : Prop :=
  resp.body = noUpstreams → ∃ route, selected req past = some route ∧ Exhausted past route

theorem answers_text {past : History} {status : Nat} {message : String}
    (other : message ≠ "Bad Gateway: no upstreams available") : Answers req past (errorResponse status message) := by
  intro same
  exact absurd (ProxyBody.text.inj same) other

/-- The body of an attempt is there when attempts are rebuilt or the client's was not taken. -/
theorem takeBody_eq {retry : Bool} {incoming : Option Incoming} (available : retry = true ∨ incoming ≠ none) :
    ∃ body, takeBody retry incoming = .ret (body, if retry then incoming else none) ∧
      (retry = true → body = .empty) := by
  cases retry with
  | true => exact ⟨.empty, rfl, fun _ => rfl⟩
  | false =>
    cases incoming with
    | some body => exact ⟨.streamed body, rfl, fun yes => nomatch yes⟩
    | none =>
      rcases available with yes | there
      · cases yes
      · exact absurd rfl there

/-- The answer to an outcome that no other attempt follows. -/
def answerTo (route : RouteConfig) : Outcome → Response ProxyBody
  | .responded resp => ⟨resp.status, overridden resp.headers route.headers.response, .streamed resp.body⟩
  | .failed _ => errorResponse 502 "Bad Gateway"
  | .elapsed => errorResponse 504 "Gateway Timeout"

/-- The rule of the loop: `inv` holds in front of the attempts that remain and `chosen` behind the
    choice of an address; an attempt ends with its answer, or behind a failure to connect with `inv`. -/
theorem attempts_rule {may : History → Act → Prop} {fin : History → Response ProxyBody → Prop} {retry : Bool}
    (inv : Nat → List String → History → Prop) (chosen : Nat → List String → Option String → History → Prop)
    (spent : ∀ {tried past}, inv 0 tried past → fin past (errorResponse 502 "Bad Gateway"))
    (choose : ∀ {n tried past}, inv (n + 1) tried past →
      Keeps may (fun past addr => chosen n tried addr past) past (pickUpstream build route tried))
    (empty : ∀ {n tried past}, chosen n tried none past →
      fin past (errorResponse 502 "Bad Gateway: no upstreams available"))
    (attempt : ∀ {n tried addr past body}, chosen n tried (some addr) past → (retry = true → body = .empty) →
      Keeps may (fun past outcome => (retry = true → outcome = .failed true → inv n (tried ++ [addr]) past) ∧
        (retry = false ∨ outcome ≠ .failed true → fin past (answerTo route outcome))) past
        (proxyRequest crates conn (totalTimeout route) (attemptRequest conn route req.parts body) addr))
    (remaining : Nat) {incoming : Option Incoming} {tried : List String} {past : History}
    (available : retry = true ∨ incoming ≠ none) (start : inv remaining tried past) :
    Keeps may fin past (attempts build crates conn route req.parts retry remaining incoming tried) := by
  induction remaining generalizing incoming tried past with
  | zero => exact spent start
  | succ remaining ih =>
    unfold attempts
    refine keeps_bind.mpr (keeps_mono (fun _ _ may => may) ?_ (choose start))
    intro past addr picked
    cases addr with
    | none => exact empty picked
    | some addr =>
      obtain ⟨body, taken, rebuilt⟩ := takeBody_eq available
      simp only [taken, Prog.ret_bind]
      refine keeps_bind.mpr (keeps_mono (fun _ _ may => may) ?_ (attempt picked rebuilt))
      rintro past outcome ⟨again, ends⟩
      cases outcome with
      | responded resp => exact ends (.inr nofun)
      | elapsed => exact ends (.inr nofun)
      | failed isConnect =>
        cases retry with
        | false => exact ends (.inl rfl)
        | true =>
          cases isConnect with
          | false => exact ends (.inr nofun)
          | true => exact ih (.inl rfl) (again rfl rfl)

/-- Every attempt is sent for the route, and a client's body is there when it is taken. -/
theorem attempts_keeps {retry : Bool} (remaining : Nat) {incoming : Option Incoming} (tried : List String)
    {past : History} (serving : Serving build req route past) (available : retry = true ∨ incoming ≠ none) :
    Keeps (May build crates conn req) (Answers req) past
      (attempts build crates conn route req.parts retry remaining incoming tried) := by
  refine attempts_rule (fun _ _ past => Serving build req route past)
    (fun _ _ addr past => Serving build req route past ∧ (∀ a, addr = some a → Drawn past route a) ∧
      (addr = none → Exhausted past route)) ?_ ?_ ?_ ?_ remaining available serving
  · intro tried past serving
    exact answers_text (by decide)
  · intro n tried past serving
    exact pickUpstream_keeps tried serving
  · rintro n tried past ⟨serving, -, exhausted⟩
    exact fun _ => ⟨route, serving.1, exhausted rfl⟩
  · rintro n tried addr past body ⟨serving, drawn, -⟩ -
    refine keeps_mono (fun _ _ may => may) ?_ (proxyRequest_keeps body serving (drawn addr rfl))
    intro past outcome serving
    refine ⟨fun _ _ => serving, fun _ => ?_⟩
    cases outcome with
    | responded resp => exact fun same => nomatch same
    | failed isConnect => exact answers_text (by decide)
    | elapsed => exact answers_text (by decide)

/-- The mirror copy is made for the route that is served. -/
theorem mirrorCopy_keeps {past : History} (serving : Serving build req route past) :
    Keeps (May build crates conn req) (fun past _ => Serving build req route past) past
      (mirrorCopy crates conn route req) := by
  unfold mirrorCopy
  split
  · exact serving
  · rename_i mirror mirrored
    split
    · have sampled : Keeps (May build crates conn req) (fun past _ => Serving build req route past) past
          (shouldMirror (mirror.rate.getD 100)) := by
        unfold shouldMirror
        split
        · exact serving
        · split
          · exact serving
          · exact keeps_call_bind.mpr ⟨serving_ne_nil serving, fun _ => serving_append _ serving⟩
      refine keeps_bind.mpr (keeps_mono (fun _ _ may => may) ?_ sampled)
      intro past chosen serving
      cases chosen with
      | false => exact serving
      | true =>
        show Keeps _ _ past (mirrorRequest crates conn (totalTimeout route) (buildRequest req.parts .empty) mirror.addr)
        unfold mirrorRequest
        split
        · exact ⟨serving_ne_nil serving, fun _ => serving_append _ serving⟩
        · rename_i out prepared
          exact ⟨⟨route, mirror, serving, mirrored, rfl, prepared⟩, fun _ => serving_append _ serving⟩
    · exact serving

theorem forward_keeps {past : History} (serving : Serving build req route past) :
    Keeps (May build crates conn req) (Answers req) past (forward build crates conn route req) := by
  refine keeps_bind.mpr (keeps_mono (fun _ _ may => may) ?_ (mirrorCopy_keeps serving))
  intro past _ serving
  exact attempts_keeps _ [] serving (.inr (by simp))

/-- The route is served once its filter allowed the request or none was found for it. -/
theorem serveRoute_keeps {config : Config}
    (choice : chooseRoute config req.parts = some route) :
    Keeps (May build crates conn req) (Answers req) [⟨.readConfig, config⟩] (serveRoute build crates conn route req) := by
  have read : selected req [⟨.readConfig, config⟩] = some route := choice
  unfold serveRoute
  have filter : Keeps (May build crates conn req)
      (fun past plugin => selected req past = some route ∧ past ≠ [] ∧ (build.plugins = true → ∀ path,
        route.plugin = some path → ⟨.getPlugin path, plugin⟩ ∈ past)) [⟨.readConfig, config⟩]
      (readPlugin build route) := by
    unfold readPlugin
    split
    · rename_i plugins
      cases guard : route.plugin with
      | none => exact ⟨read, by simp, by simp⟩
      | some path =>
        refine ⟨⟨config, route, rfl, read, plugins, guard⟩, fun plugin => ⟨selected_append _ read, by simp, ?_⟩⟩
        rintro _ _ ⟨⟩
        simp
    · rename_i without
      exact ⟨read, by simp, fun plugins => absurd plugins without⟩
  refine keeps_bind.mpr (keeps_mono (fun _ _ may => may) ?_ filter)
  rintro past plugin ⟨read, nonempty, guarded⟩
  refine keeps_call_bind.mpr ⟨nonempty, fun _ => ?_⟩
  cases plugin with
  | none =>
    refine forward_keeps ⟨selected_append _ read, fun plugins path guard => .inl ?_⟩
    exact List.mem_append_left _ (guarded plugins path guard)
  | some plugin =>
    have before : past ++ [⟨.dropConfig, ()⟩] ≠ [] := by simp
    refine keeps_call_bind.mpr ⟨before, fun verdict => ?_⟩
    cases verdict with
    | allow =>
      refine forward_keeps ⟨selected_append _ (selected_append _ read), fun plugins path guard => .inr ⟨plugin, ?_, ?_⟩⟩
      · exact List.mem_append_left _ (List.mem_append_left _ (guarded plugins path guard))
      · simp
    | deny status => exact answers_text (by decide)

theorem handle_keeps : Keeps (May build crates conn req) (Answers req) [] (handle build crates conn req) := by
  refine keeps_call_bind.mpr ⟨rfl, fun config => ?_⟩
  cases choice : chooseRoute config req.parts with
  | none =>
    simp only
    exact ⟨List.cons_ne_nil _ _, fun _ => answers_text (by decide)⟩
  | some route => exact serveRoute_keeps choice

/-- A request that selected a route goes on to serve it. -/
theorem handle_runs {trace : History} {q : Program (Response ProxyBody)}
    (run : Prog.Runs (handle build crates conn req) trace q) (choice : selected req trace = some route) :
    ∃ config rest, trace = ⟨.readConfig, config⟩ :: rest ∧ chooseRoute config req.parts = some route ∧
      Prog.Runs (serveRoute build crates conn route req) rest q := by
  unfold handle at run
  rw [Prog.call_bind] at run
  rcases Prog.runs_act run with ⟨rfl, _⟩ | ⟨config, rest, rfl, behind⟩
  · cases choice
  · have chosen : chooseRoute config req.parts = some route := choice
    rw [chosen] at behind
    exact ⟨config, rest, rfl, chosen, behind⟩

/-- Whatever is answered to it, a request performs only what the contract permits. -/
theorem serve_keeps : Keeps (May build crates conn req) (fun _ _ => True) [] (serve build crates conn req) := by
  refine keeps_bind.mpr (keeps_mono (fun _ _ may => may) ?_ handle_keeps)
  intro past resp answers
  exact ⟨answers, fun _ => trivial⟩

end

end Handling
end Torana
