import Torana.Metering
import Torana.OverrideOrder
import Torana.Versions

/-!
Which answer a request gets. It has one of six causes, and each is read off the request's
own history: its config, the verdict of its plugin and the outcomes of its attempts. An
answer that is relayed is the upstream's, but for the fields of the connection and the
overrides of the route.
-/
namespace Torana
open Http Proxy
open Config (RouteConfig Build)
open Prog (Keeps keeps_and keeps_bind keeps_call_bind keeps_mono)

namespace Answering
open Server Handling Attempts Overrides

/-! ## Verdicts -/

theorem verdictOf_range {code : Int32} {status : Nat} (denied : Plugins.verdictOf code = .deny status) :
    400 ≤ status ∧ status < 600 := by
  unfold Plugins.verdictOf at denied
  split at denied
  · cases denied
  · split at denied
    · rename_i inside
      obtain ⟨low, high⟩ := Bool.and_eq_true_iff.mp inside
      have low : (400 : Int32).toInt ≤ code.toInt := Int32.le_iff_toInt_le.mp (of_decide_eq_true low)
      have high : code.toInt < (600 : Int32).toInt := Int32.lt_iff_toInt_lt.mp (of_decide_eq_true high)
      have first : (400 : Int32).toInt = 400 := by decide
      have last : (600 : Int32).toInt = 600 := by decide
      cases denied
      omega
    · cases denied
      exact ⟨by decide, by decide⟩

/-- A plugin denies with the status of an error, whatever it returns and however it fails. -/
theorem evaluate_range {wasm : Plugins.Wasmtime} {plugin : Plugins.Plugin} {method path : String} {status : Nat}
    (denied : Plugins.evaluate wasm plugin method path = .deny status) : 400 ≤ status ∧ status < 600 := by
  unfold Plugins.evaluate at denied
  split at denied
  · rename_i verdict evaluated
    subst denied
    simp only [Plugins.tryEvaluate, bind_ok] at evaluated
    obtain ⟨_, _, _, _, _, _, _, _, _, _, _, _, _, _, code, _, verdict⟩ := evaluated
    exact verdictOf_range (Except.ok.inj verdict)
  · cases denied
    exact ⟨by decide, by decide⟩

/-- The denials of a history have the status of an error. -/
def Denials (past : History) : Prop :=
  ∀ plugin method path status, ⟨.evaluate plugin method path, .deny status⟩ ∈ past → 400 ≤ status ∧ status < 600

/-! ## Relayed responses -/

/-- The response overrides of a route. -/
def responseEntries (route : RouteConfig) : List (String × String) := route.headers.response.elim [] StringMap.entries

/-- The values are what an override leaves: none, or the one that its text makes. -/
def Leaves (value : String) (values : List HeaderValue) : Prop :=
  (value = "" ∧ values = []) ∨ ∃ v, HeaderValue.fromStr value = some v ∧ values = [v]

/-- The response is the upstream's: its status, its body and every field that is neither of
    the connection nor overridden. -/
structure Relayed (route : RouteConfig) (upstream : Response (List UInt8)) (resp : Response ProxyBody) : Prop where
  status : resp.status = upstream.status
  body : resp.body = .streamed upstream.body
  kept : ∀ name, (∀ entry ∈ responseEntries route, HeaderName.fromBytes entry.1 ≠ some name) →
    resp.headers.getAll name = if name ∈ hopByHopHeaders ∨ name ∈ connectionOptions upstream.headers then []
      else upstream.headers.getAll name
  replaced : ∀ name, (∃ entry ∈ responseEntries route, HeaderName.fromBytes entry.1 = some name) →
    ∃ entry ∈ responseEntries route, HeaderName.fromBytes entry.1 = some name ∧
      Leaves entry.2 (resp.headers.getAll name)

/-- Of the overrides that name a field the last one decides. -/
theorem getAll_overrides_last {entries : List (String × String)} (applied : ∀ entry ∈ entries, Completeness.Applied entry)
    {name : HeaderName} (named : ∃ entry ∈ entries, HeaderName.fromBytes entry.1 = some name) (headers : HeaderMap) :
    ∃ entry ∈ entries, HeaderName.fromBytes entry.1 = some name ∧
      Leaves entry.2 ((entries.foldl applyHeaderOverride headers).getAll name) := by
  induction entries generalizing headers with
  | nil =>
    obtain ⟨_, absent, _⟩ := named
    cases absent
  | cons entry rest ih =>
    rw [List.foldl_cons]
    by_cases later : ∃ entry ∈ rest, HeaderName.fromBytes entry.1 = some name
    · obtain ⟨last, member, same, left⟩ := ih (fun e member => applied e (List.mem_cons_of_mem _ member)) later _
      exact ⟨last, List.mem_cons_of_mem _ member, same, left⟩
    · have others : ∀ e ∈ rest, HeaderName.fromBytes e.1 ≠ some name := fun e member same => later ⟨e, member, same⟩
      obtain ⟨first, member, same⟩ := named
      obtain rfl : first = entry := by
        rcases List.mem_cons.mp member with here | there
        · exact here
        · exact absurd same (others first there)
      refine ⟨first, List.mem_cons_self, same, ?_⟩
      rw [getAll_overrides_ne _ _ others, getAll_override_self _ same]
      rcases OverrideOrder.applied_cases (applied first List.mem_cons_self) with ⟨empty, cleared⟩ | ⟨v, made, one⟩
      · exact .inl ⟨empty, cleared _⟩
      · exact .inr ⟨v, made, one _⟩

theorem overridden_response (route : RouteConfig) (headers : HeaderMap) :
    overridden headers route.headers.response = (responseEntries route).foldl applyHeaderOverride headers := by
  unfold overridden responseEntries
  cases route.headers.response <;> rfl

/-- What an accepted route makes of the response of an upstream. -/
theorem answerTo_relayed {build : Build} {route : RouteConfig} (checked : Config.validateRoute build route = .ok ())
    (upstream : Response (List UInt8)) : Relayed route upstream (answerTo route (returned (.responded upstream))) := by
  have applied : ∀ entry ∈ responseEntries route, Completeness.Applied entry := by
    intro entry member
    refine Completeness.applied_header ((Completeness.validateRoute_ok checked).2.2.2 entry ?_)
    exact List.mem_append_right _ member
  refine ⟨rfl, rfl, ?_, ?_⟩
  · intro name others
    show (overridden (stripHopByHop upstream.headers) route.headers.response).getAll name = _
    rw [overridden_response, getAll_overrides_ne _ _ others, getAll_strip]
  · intro name named
    show ∃ entry ∈ responseEntries route, _ ∧ Leaves entry.2
      ((overridden (stripHopByHop upstream.headers) route.headers.response).getAll name)
    rw [overridden_response]
    exact getAll_overrides_last applied named _

/-! ## Causes -/

/-- Why the request got its answer, after its read of the config: no route, a denial, or
    what its attempts came to. They failed to connect `refused` times before that. -/
inductive Because (build : Build) (req : Request Incoming) (config : Config) :
    History → Response ProxyBody → Prop where
  | unrouted (unselected : chooseRoute config req.parts = none) :
      Because build req config [⟨.dropConfig, ()⟩] (errorResponse 404 "Not Found: no route matched")
  | denied {route : RouteConfig} {path : String} {plugin : Plugins.Plugin} {status : Nat}
      (routed : chooseRoute config req.parts = some route) (guarded : build.plugins = true)
      (named : route.plugin = some path) (refusal : 400 ≤ status ∧ status < 600) :
      Because build req config [⟨.getPlugin path, some plugin⟩, ⟨.dropConfig, ()⟩,
        ⟨.evaluate plugin req.parts.method.asStr req.parts.uri.path, .deny status⟩] (errorResponse status "Denied by plugin")
  | unavailable {route : RouteConfig} {past : History} {refused : Nat}
      (serving : Serving build req route (⟨.readConfig, config⟩ :: past))
      (outcomes : outcomes past = List.replicate refused (.failed true))
      (more : refused < effectiveAttempts route req) (exhausted : Exhausted past route) :
      Because build req config past (errorResponse 502 "Bad Gateway: no upstreams available")
  | failed {route : RouteConfig} {past : History} {refused : Nat} {isConnect : Bool}
      (serving : Serving build req route (⟨.readConfig, config⟩ :: past))
      (outcomes : outcomes past = List.replicate refused (.failed true) ++ [.failed isConnect])
      (last : isConnect = false ∨ refused + 1 = effectiveAttempts route req) :
      Because build req config past (errorResponse 502 "Bad Gateway")
  | elapsed {route : RouteConfig} {past : History} {refused : Nat}
      (serving : Serving build req route (⟨.readConfig, config⟩ :: past))
      (outcomes : outcomes past = List.replicate refused (.failed true) ++ [.elapsed])
      (allowed : refused < effectiveAttempts route req) :
      Because build req config past (errorResponse 504 "Gateway Timeout")
  | relayed {route : RouteConfig} {past : History} {refused : Nat} {upstream : Response (List UInt8)}
      {resp : Response ProxyBody} (serving : Serving build req route (⟨.readConfig, config⟩ :: past))
      (outcomes : outcomes past = List.replicate refused (.failed true) ++ [.responded upstream])
      (allowed : refused < effectiveAttempts route req) (relayed : Relayed route upstream resp) :
      Because build req config past resp

/-- What holds when `handle` ends. -/
def Explained (build : Build) (crates : Crates) (req : Request Incoming) (past : History) (resp : Response ProxyBody) :
    Prop :=
  ∃ config rest, past = ⟨.readConfig, config⟩ :: rest ∧
    (config.validate build crates.parseUri = .ok () → Denials past → Because build req config rest resp)

section
variable {build : Build} {crates : Crates} {conn : Conn} {route : RouteConfig} {req : Request Incoming} {config : Config}
  {past : History}

theorem retrying_replicate {remaining : Nat} (retrying : Retrying route req remaining past) :
    outcomes past = List.replicate (outcomes past).length (.failed true) :=
  List.eq_replicate_iff.mpr ⟨rfl, retrying.failed⟩

/-- In every history there are no more attempts than the request may make. -/
theorem atMostOnce_allowed (once : AtMostOnce route req past) : (outcomes past).length ≤ effectiveAttempts route req := by
  unfold effectiveAttempts
  split
  · exact once.bounded
  · rename_i stays
    by_cases replayable : bodyReplayable req = true
    · have few : ¬ 1 < route.maxAttempts := by
        intro many
        exact stays (by simp [canRetry, many, replayable])
      have bounded := once.bounded
      omega
    · exact once.single (by simpa using replayable)

/-- Behind the last attempt the others were refused. -/
theorem atMostOnce_last {outcome : Outcome} (once : AtMostOnce route req past)
    (last : (outcomes past).getLast? = some outcome) :
    ∃ refused, outcomes past = List.replicate refused (.failed true) ++ [outcome] ∧
      refused < effectiveAttempts route req := by
  have split : (outcomes past).dropLast ++ [outcome] = outcomes past := List.dropLast_append_getLast? outcome last
  have earlier : (outcomes past).dropLast = List.replicate (outcomes past).dropLast.length (.failed true) :=
    List.eq_replicate_iff.mpr ⟨rfl, once.retried⟩
  refine ⟨(outcomes past).dropLast.length, ?_, ?_⟩
  · rw [← earlier, split]
  · have count := congrArg List.length split
    have allowed := atMostOnce_allowed once
    rw [List.length_append, List.length_singleton] at count
    omega

theorem exhausted_behind {rest : History} (exhausted : Exhausted (⟨.readConfig, config⟩ :: rest) route) :
    Exhausted rest route := by
  rcases exhausted with absent | ⟨lb, read, without⟩
  · refine .inl ?_
    rcases List.mem_cons.mp absent with same | there
    · cases same
    · exact there
  · refine .inr ⟨lb, ?_, without⟩
    rcases List.mem_cons.mp read with same | there
    · cases same
    · exact there

theorem serving_shape (serving : Serving build req route past) :
    ∃ config rest, past = ⟨.readConfig, config⟩ :: rest ∧ chooseRoute config req.parts = some route := by
  obtain ⟨config, read, choice⟩ := Option.bind_eq_some_iff.mp serving.1
  cases past with
  | nil => cases read
  | cons first rest =>
    obtain ⟨a, r⟩ := first
    cases a <;> cases read
    exact ⟨config, rest, rfl, choice⟩

theorem serving_checked (accepted : config.validate build crates.parseUri = .ok ())
    (choice : chooseRoute config req.parts = some route) : Config.validateRoute build route = .ok () :=
  Config.validate_route accepted (Routing.selectRoute_mem choice)

/-! ## The attempts -/

/-- The answer to the last attempt is explained by its outcome. -/
theorem last_explained {outcome : Outcome} (serving : Serving build req route past) (once : AtMostOnce route req past)
    (last : (outcomes past).getLast? = some outcome) (ends : canRetry route req = false ∨ outcome ≠ .failed true) :
    Explained build crates req past (answerTo route (returned outcome)) := by
  obtain ⟨refused, tried, allowed⟩ := atMostOnce_last once last
  obtain ⟨config, rest, rfl, choice⟩ := serving_shape serving
  refine ⟨config, rest, rfl, fun accepted _ => ?_⟩
  cases outcome with
  | responded upstream =>
    exact .relayed serving tried allowed (answerTo_relayed (serving_checked accepted choice) upstream)
  | elapsed => exact .elapsed serving tried allowed
  | failed isConnect =>
    refine .failed serving tried ?_
    cases isConnect with
    | false => exact .inl rfl
    | true =>
      have stays : canRetry route req = false := by
        rcases ends with stays | other
        · exact stays
        · exact absurd rfl other
      have single : effectiveAttempts route req = 1 := by simp [effectiveAttempts, stays]
      exact .inr (by omega)

/-- The loop ends with an answer that is explained by the attempts before it. -/
theorem attempts_explained (remaining : Nat) {incoming : Option Incoming} (tried : List String)
    (serving : Serving build req route past) (retrying : Retrying route req remaining past)
    (available : canRetry route req = true ∨ incoming ≠ none) :
    Keeps (fun _ _ => True) (Explained build crates req) past
      (attempts build crates conn route req.parts (canRetry route req) remaining incoming tried) := by
  refine attempts_rule (fun n _ past => Serving build req route past ∧ Retrying route req n past)
    (fun n _ addr past => Serving build req route past ∧ Retrying route req (n + 1) past ∧
      (∀ a, addr = some a → Drawn past route a) ∧ (addr = none → Exhausted past route)) ?_ ?_ ?_ ?_ remaining available
    ⟨serving, retrying⟩
  · rintro tried past ⟨serving, retrying⟩
    obtain ⟨config, rest, rfl, choice⟩ := serving_shape serving
    refine ⟨config, rest, rfl, fun _ _ => ?_⟩
    have all := retrying_replicate retrying
    have count : (outcomes (⟨.readConfig, config⟩ :: rest)).length = effectiveAttempts route req := retrying.left
    have positive : 0 < effectiveAttempts route req := effectiveAttempts_pos
    obtain ⟨refused, more⟩ := Nat.exists_eq_add_of_lt positive
    rw [count, more, Nat.zero_add, List.replicate_succ'] at all
    exact .failed serving all (.inr (by omega))
  · rintro n tried past ⟨serving, retrying⟩
    have picks : Keeps (Handling.May build crates conn req) _ past (pickUpstream build route tried) :=
      pickUpstream_keeps tried serving
    refine keeps_mono (fun _ _ _ => trivial) ?_
      (keeps_and picks (steady_keeps retrying_steady (pickUpstream_plain tried past) retrying))
    rintro past addr ⟨⟨serving, drawn, exhausted⟩, retrying⟩
    exact ⟨serving, retrying, drawn, exhausted⟩
  · rintro n tried past ⟨serving, retrying, -, exhausted⟩
    have exhausted := exhausted rfl
    obtain ⟨config, rest, rfl, choice⟩ := serving_shape serving
    have more : (outcomes rest).length < effectiveAttempts route req := by
      have left : (outcomes rest).length + (n + 1) = effectiveAttempts route req := retrying.left
      omega
    have all := retrying_replicate retrying
    exact ⟨config, rest, rfl, fun _ _ => .unavailable serving all more (exhausted_behind exhausted)⟩
  · rintro n tried addr past body ⟨serving, retrying, drawn, -⟩ rebuilt
    refine keeps_mono (fun _ _ _ => trivial) ?_
      (keeps_and (proxyRequest_keeps body serving (drawn addr rfl)) (proxyRequest_tried addr retrying rebuilt))
    rintro past _ ⟨serving, outcome, rfl, once, last, again⟩
    refine ⟨fun rebuildable failed => ⟨serving, again rebuildable ?_⟩, fun ends => ?_⟩
    · cases outcome with
      | failed isConnect => exact failed
      | responded upstream => cases failed
      | elapsed => cases failed
    · refine last_explained serving once last (ends.imp_right fun other same => other ?_)
      rw [same]
      rfl

theorem forward_explained (serving : Serving build req route past) (untried : Untried past) :
    Keeps (fun _ _ => True) (Explained build crates req) past (forward build crates conn route req) := by
  have copies : Keeps (Handling.May build crates conn req) _ past (mirrorCopy crates conn route req) :=
    mirrorCopy_keeps serving
  have steady : Steady (May route req) Untried := untried_steady
  refine keeps_bind.mpr (keeps_mono (fun _ _ _ => trivial) ?_
    (keeps_and copies (steady_keeps steady (mirrorCopy_plain crates conn route req past) untried)))
  rintro past _ ⟨serving, untried⟩
  exact attempts_explained _ [] serving (untried_retrying untried) (.inr (by simp))

/-- The filter of the route was read and the guard is dropped. -/
theorem filtered_explained (choice : chooseRoute config req.parts = some route) :
    Keeps (fun _ _ => True) (Explained build crates req) [⟨.readConfig, config⟩]
      (serveRoute build crates conn route req) := by
  have read : selected req [⟨.readConfig, config⟩] = some route := choice
  unfold serveRoute readPlugin
  by_cases guarded : build.plugins = true
  · rw [if_pos guarded]
    cases named : route.plugin with
    | none =>
      refine keeps_call_bind.mpr ⟨trivial, fun _ => forward_explained ⟨read, fun _ path names => ?_⟩ ⟨rfl, rfl⟩⟩
      rw [named] at names
      cases names
    | some path =>
      refine keeps_call_bind.mpr ⟨trivial, fun plugin => keeps_call_bind.mpr ⟨trivial, fun _ => ?_⟩⟩
      cases plugin with
      | none =>
        refine forward_explained ⟨read, fun _ path' same => ?_⟩ ⟨rfl, rfl⟩
        cases named.symm.trans same
        exact .inl (by simp)
      | some plugin =>
        refine keeps_call_bind.mpr ⟨trivial, fun verdict => ?_⟩
        cases verdict with
        | allow =>
          refine forward_explained ⟨read, fun _ path' same => ?_⟩ ⟨rfl, rfl⟩
          cases named.symm.trans same
          exact .inr ⟨plugin, by simp, by simp⟩
        | deny status =>
          refine ⟨config, _, rfl, fun _ denials => ?_⟩
          have range := denials plugin req.parts.method.asStr req.parts.uri.path status (by simp)
          have code : isStatusCode status = true := by
            rw [isStatusCode, Bool.and_eq_true, decide_eq_true_eq, decide_eq_true_eq]
            omega
          rw [if_pos code]
          exact .denied choice guarded named range
  · rw [if_neg guarded]
    exact keeps_call_bind.mpr ⟨trivial, fun _ => forward_explained
      ⟨read, fun active => absurd active guarded⟩ ⟨rfl, rfl⟩⟩

theorem handle_explained :
    Keeps (fun _ _ => True) (Explained build crates req) [] (handle build crates conn req) := by
  refine keeps_call_bind.mpr ⟨trivial, fun config => ?_⟩
  cases choice : chooseRoute config req.parts with
  | none => exact ⟨trivial, fun _ => ⟨config, _, rfl, fun _ _ => .unrouted choice⟩⟩
  | some route => exact filtered_explained choice

/-! ## The answer of a task -/

/-- No answer was given yet. -/
def Unanswered (past : History) : Prop := ∀ resp, ⟨.respond resp, ()⟩ ∉ past

/-- The one answer that was given comes last and is explained. -/
def Told (build : Build) (crates : Crates) (req : Request Incoming) (past : History) : Prop :=
  ∃ before resp, past = before ++ [⟨.respond resp, ()⟩] ∧ Unanswered before ∧ Explained build crates req before resp

/-- A request answers once, at its end, and the answer is explained. -/
theorem serve_told :
    Keeps (fun past _ => Unanswered past) (fun past _ => Told build crates req past) []
      (serve build crates conn req) := by
  have stable : ∀ (past : History) (a : Act) (r : a.Res), Unanswered past → silent a ∧ True →
      Unanswered (past ++ [⟨a, r⟩]) := by
    intro past a r unanswered quiet resp member
    rcases List.mem_append.mp member with earlier | last
    · exact unanswered resp earlier
    · have same := List.mem_singleton.mp last
      cases same
      exact quiet.1 resp rfl
  have start : Unanswered [] := fun resp absent => nomatch absent
  refine keeps_bind.mpr (keeps_mono (fun _ _ may => may) ?_ (Prog.keeps_invariant Unanswered stable
    (fun past a unanswered _ => unanswered) (keeps_and (Prog.keeps_of_only handle_silent) handle_explained) start))
  rintro past resp ⟨unanswered, -, explained⟩
  exact ⟨unanswered, fun _ => ⟨past, resp, rfl, unanswered, explained⟩⟩

end

/-! ## Every run -/

section
variable {sys : System} {meets : System.World → Tid → Prop} {s : Store} {w : System.World}

/-- The config at the start, or one that was installed later. -/
def Installed (s : Store) (log : List (Tid × Event Act.Res)) (config : Config) : Prop :=
  config = s.config ∨ (.reload, ⟨.writeConfig config, ()⟩) ∈ log

theorem installed_append {log : List (Tid × Event Act.Res)} {config : Config} (more : List (Tid × Event Act.Res))
    (installed : Installed s log config) : Installed s (log ++ more) config :=
  installed.imp_right fun member => List.mem_append_left _ member

/-- The config of every reached world was accepted and is installed. -/
theorem reaches_config (accepted : s.config.validate sys.build sys.crates.parseUri = .ok ())
    (reaches : sys.Reaches meets s w) :
    w.state.config.validate sys.build sys.crates.parseUri = .ok () ∧ Installed s w.log w.state.config := by
  refine Pool.reaches_invariant (fun w => w.state.config.validate sys.build sys.crates.parseUri = .ok () ∧
    Installed s w.log w.state.config) ⟨accepted, .inl rfl⟩ ?_ reaches
  rintro o t w₁ w₂ before ⟨valid, installed⟩ _ taken
  obtain ⟨a, next, r, s', head, done, rfl⟩ := Pool.step_cases taken
  rcases (perform_changes done).config with same | ⟨_, rfl⟩
  · show s'.config.validate _ _ = _ ∧ Installed s _ s'.config
    rw [same]
    exact ⟨valid, installed_append _ installed⟩
  · obtain rfl := System.reload_only before head rfl
    have contract := System.own_keeps (Versions.reload_writes sys) before
    rw [head] at contract
    obtain ⟨gens, rest, position, -⟩ := contract.1 rfl
    refine ⟨?_, .inr (by simp)⟩
    have listed : .writeConfig s'.config ∈ gens.flatMap (·.writes sys.build) := by
      rw [position.written]
      simp
    obtain ⟨g, member, write⟩ := List.mem_flatMap.mp listed
    have same : s'.config = g.config := by
      simp only [Versions.Generation.writes, List.mem_cons, List.mem_append, reduceCtorEq, false_or,
        List.mem_ite_nil_right, List.not_mem_nil, or_false, and_false, Act.writeConfig.injEq] at write
      exact write
    show s'.config.validate _ _ = _
    rw [same]
    exact (position.accepted g member).valid

/-- In every run the plugins deny with the status of an error. -/
theorem reaches_denials (n : Nat) (reaches : sys.Reaches meets s w) : Denials (Pool.own (.request n) w.log) := by
  intro plugin method path status member
  obtain ⟨before, after, logged⟩ := List.append_of_mem (Pool.mem_own.mp member)
  obtain ⟨o, w₁, next, s', _, _, _, _, done, _⟩ := System.request_event reaches logged
  have verdict : Plugins.evaluate sys.crates.wasm plugin method path = .deny status :=
    congrArg Prod.fst (Option.some.inj done)
  exact evaluate_range verdict

/-- In every run of any number of requests, reloads, probers and aborted tasks, from an
    accepted config: a request is answered at most once and does nothing afterwards, and its
    answer follows from the accepted config that it read, the verdict of its plugin and the
    outcomes of its attempts. -/
theorem answer_explained (sys : System) (s : Store) (w : System.World)
    (accepted : s.config.validate sys.build sys.crates.parseUri = .ok ())
    (reaches : sys.Reaches (fun _ _ => True) s w) (n : Nat) (resp : Response ProxyBody)
    (answered : (.request n, ⟨.respond resp, ()⟩) ∈ w.log) :
    ∃ config past, Pool.own (.request n) w.log = ⟨.readConfig, config⟩ :: (past ++ [⟨.respond resp, ()⟩]) ∧
      Unanswered past ∧ config.validate sys.build sys.crates.parseUri = .ok () ∧ Installed s w.log config ∧
      Because sys.build (sys.req n) config past resp := by
  have member := Pool.mem_own.mpr answered
  have contract := System.own_keeps (t := .request n) serve_told reaches
  cases ends : w.threads (.request n) with
  | act a next =>
    rw [ends] at contract
    exact absurd member (contract.1 resp)
  | ret value =>
    rw [ends] at contract
    obtain ⟨before, last, own, unanswered, config, past, rfl, because⟩ := contract
    rw [own] at member
    obtain rfl : resp = last := by
      rcases List.mem_append.mp member with earlier | same
      · exact absurd earlier (unanswered resp)
      · cases List.mem_singleton.mp same
        rfl
    have read : (.request n, ⟨.readConfig, config⟩) ∈ w.log := Pool.mem_own.mp (by rw [own]; simp)
    obtain ⟨early, late, logged⟩ := List.append_of_mem read
    obtain ⟨o, w₁, next, s', reaches₁, rfl, _, _, done, _⟩ := System.request_event reaches logged
    obtain ⟨valid, installed⟩ := reaches_config accepted reaches₁
    rw [← (perform_readConfig done).1] at valid installed
    refine ⟨config, past, own, fun resp there => unanswered resp (List.mem_cons_of_mem _ there), valid, ?_, ?_⟩
    · rw [logged]
      exact installed_append _ installed
    · refine because valid fun plugin method path status denied => ?_
      refine reaches_denials n reaches plugin method path status ?_
      rw [own]
      exact List.mem_append_left _ denied

end

/-- The event answers the first request. -/
def isAnswer : Tid × Event Act.Res → Bool
  | (.request 0, ⟨.respond _, _⟩) => true
  | _ => false

/-- The request is answered under the config that a reload replaces while it is under way. -/
theorem answer_explained_overtaken :
    ∃ w resp, Lockstep.moving.Reaches (fun _ _ => True) Lockstep.oldStore w ∧
      (.request 0, ⟨.respond resp, ()⟩) ∈ w.log ∧
      ∃ config past, Pool.own (.request 0) w.log = ⟨.readConfig, config⟩ :: (past ++ [⟨.respond resp, ()⟩]) ∧
        Unanswered past ∧ config.validate Lockstep.moving.build Lockstep.moving.crates.parseUri = .ok () ∧
        Installed Lockstep.oldStore w.log config ∧
        Because Lockstep.moving.build (Lockstep.moving.req 0) config past resp := by
  obtain ⟨w, reaches, ended⟩ := System.reaches_of_run Lockstep.moving (fun _ _ => true)
    (Lockstep.overtaking ++ [(.request 0, Samples.outside)]) Lockstep.oldStore (fun w => w.log.any isAnswer)
    (by decide +kernel)
  have reaches := Pool.reaches_mono (fun _ _ _ => trivial) reaches
  obtain ⟨⟨t, a, r⟩, member, answers⟩ := List.any_eq_true.mp ended
  unfold isAnswer at answers
  split at answers
  · rename_i resp r same
    cases same
    exact ⟨w, resp, reaches, member,
      answer_explained Lockstep.moving Lockstep.oldStore w (by decide) reaches 0 resp member⟩
  · cases answers

end Answering
end Torana
