import Torana.Handling
import Torana.Samples

/-!
The attempts of one request, whatever their outcomes: how many there are, which of
them may be followed by another, how often the client's body is sent, and which
answer they come to.
-/
namespace Torana
open Http Proxy
open Config (RouteConfig Build)
open Prog (Runs Keeps Only keeps_and keeps_bind keeps_call_bind keeps_mono keeps_stable keeps_runs only_bind
  only_call_bind only_of_keeps)

namespace Attempts
open Server Handling

/-! ## Outcomes -/

/-- The outcome of an attempt. One that ends before anything is sent did not fail to connect. -/
def outcomeOf : Event Act.Res → Option Outcome
  | ⟨.sendRequest _ _ _, outcome⟩ => some outcome
  | ⟨.failUnsent _ _, _⟩ => some (.failed false)
  | _ => none

/-- The outcomes of the attempts, in order. -/
def outcomes (trace : History) : List Outcome := trace.filterMap outcomeOf

/-- The event sends the client's own body. -/
def streams : Event Act.Res → Bool
  | ⟨.sendRequest _ _ ⟨_, .streamed _⟩, _⟩ => true
  | _ => false

/-- Unless the attempt failed to connect, it may have reached the upstream. -/
def mayReach : Outcome → Bool
  | .failed true => false
  | _ => true

/-- The actions that are no attempt and no failed expectation. -/
def plain : Act → Bool
  | .sendRequest _ _ _ | .failUnsent _ _ | .expectFailed _ => false
  | _ => true

theorem plain_outcomes {a : Act} (isPlain : plain a = true) (r : a.Res) (past : History) :
    outcomes (past ++ [⟨a, r⟩]) = outcomes past ∧
      (past ++ [⟨a, r⟩] : History).filter streams = past.filter streams := by
  have neither : outcomeOf ⟨a, r⟩ = none ∧ streams ⟨a, r⟩ = false := by
    cases a <;> first | exact ⟨rfl, rfl⟩ | cases isPlain
  simp [outcomes, neither]

/-! ## What every history of a request satisfies -/

/-- The attempts so far: all but the last failed to connect, there are at most as many
    as the route allows and one unless the request can be rebuilt, and the client's
    body was sent at most once. -/
structure AtMostOnce (route : RouteConfig) (req : Request Incoming) (trace : History) : Prop where
  bounded : (outcomes trace).length ≤ route.maxAttempts
  retried : ∀ outcome ∈ (outcomes trace).dropLast, outcome = .failed true
  single : bodyReplayable req = false → (outcomes trace).length ≤ 1
  streamed : (trace.filter streams).length ≤ 1

/-- The answer that the last outcome comes to. -/
def AnswerOf (route : RouteConfig) (trace : History) (resp : Response ProxyBody) : Prop :=
  match (outcomes trace).getLast? with
  | some (.responded upstream) =>
    resp = ⟨upstream.status, overridden (stripHopByHop upstream.headers) route.headers.response, .streamed upstream.body⟩
  | some .elapsed => resp = errorResponse 504 "Gateway Timeout"
  | _ => ∃ message, resp = errorResponse 502 message

def denialOf : Event Act.Res → Option Nat
  | ⟨.evaluate _ _ _, .deny status⟩ => some status
  | _ => none

/-- The status with which the plugin denied the request, if it did. -/
def denial (trace : History) : Option Nat := trace.findSome? denialOf

/-- The answer of a request: that of its last attempt, or before any attempt its plugin's
    denial, with 403 for a status that is none. -/
def Reply (route : RouteConfig) (trace : History) (resp : Response ProxyBody) : Prop :=
  match denial trace with
  | some status =>
    outcomes trace = [] ∧ resp = errorResponse (if isStatusCode status then status else 403) "Denied by plugin"
  | none => AnswerOf route trace resp

/-- Nothing was attempted yet. -/
def Untried (past : History) : Prop := outcomes past = [] ∧ past.filter streams = []

/-- All attempts so far failed to connect, so that `remaining` of them are left. -/
structure Retrying (route : RouteConfig) (req : Request Incoming) (remaining : Nat) (past : History) : Prop where
  failed : ∀ outcome ∈ outcomes past, outcome = .failed true
  left : (outcomes past).length + remaining = effectiveAttempts route req
  unsent : past.filter streams = []

def May (route : RouteConfig) (req : Request Incoming) (past : History) (a : Act) : Prop :=
  AtMostOnce route req past ∧ ∀ message, a ≠ .expectFailed message

section
variable {build : Build} {crates : Crates} {conn : Conn} {route : RouteConfig} {req : Request Incoming}

theorem effectiveAttempts_le : effectiveAttempts route req ≤ route.maxAttempts := by
  unfold effectiveAttempts
  split
  · exact Nat.le_refl _
  · exact Config.maxAttempts_pos route

theorem effectiveAttempts_pos : 1 ≤ effectiveAttempts route req := by
  unfold effectiveAttempts
  split
  · exact Config.maxAttempts_pos route
  · exact Nat.le_refl _

theorem effectiveAttempts_single (once : bodyReplayable req = false) : effectiveAttempts route req = 1 := by
  simp [effectiveAttempts, canRetry, once]

theorem retrying_atMostOnce {remaining : Nat} {past : History} (retrying : Retrying route req remaining past) :
    AtMostOnce route req past := by
  have left := retrying.left
  refine ⟨?_, fun outcome member => retrying.failed outcome (List.dropLast_subset _ member), fun once => ?_, ?_⟩
  · have bound : effectiveAttempts route req ≤ route.maxAttempts := effectiveAttempts_le
    omega
  · rw [effectiveAttempts_single once] at left
    omega
  · rw [retrying.unsent]
    simp

theorem retrying_plain {remaining : Nat} {past : History} {a : Act} (r : a.Res) (isPlain : plain a = true)
    (retrying : Retrying route req remaining past) : Retrying route req remaining (past ++ [⟨a, r⟩]) := by
  obtain ⟨same, sent⟩ := plain_outcomes isPlain r past
  exact ⟨same ▸ retrying.failed, same ▸ retrying.left, sent.trans retrying.unsent⟩

theorem plain_expect {a : Act} (isPlain : plain a = true) (message : String) : a ≠ .expectFailed message := by
  rintro rfl
  cases isPlain

theorem pickUpstream_plain (tried : List String) (past : History) :
    Keeps (fun _ a => plain a = true) (fun _ _ => True) past (pickUpstream build route tried) := by
  refine keeps_call_bind.mpr ⟨rfl, fun found => ?_⟩
  cases found with
  | none => trivial
  | some lb =>
    refine keeps_bind.mpr (keeps_mono ?_ (fun _ _ _ => trivial) (nextHealthy_keeps lb build.usizeBits tried _))
    rintro _ a (⟨counter, bits, rfl⟩ | ⟨addr, rfl⟩) <;> rfl

/-- The actions of the mirror copy. -/
inductive Mirrors : Act → Prop where
  | sampled : Mirrors .subsecNanos
  | spawned (timeout : Config.Duration) (addr : String) (out : Request UpstreamBody) :
      Mirrors (.spawnMirror timeout addr out)
  | failed (addr error : String) : Mirrors (.mirrorFailed addr error)

theorem mirrorCopy_mirrors (crates : Crates) (conn : Conn) (route : RouteConfig) (req : Request Incoming)
    (past : History) :
    Keeps (fun _ => Mirrors) (fun _ _ => True) past (mirrorCopy crates conn route req) := by
  unfold mirrorCopy
  split
  · trivial
  · rename_i mirror _
    split
    · refine keeps_bind.mpr ?_
      have sampled : Keeps (fun _ => Mirrors) (fun _ _ => True) past (shouldMirror (mirror.rate.getD 100)) := by
        unfold shouldMirror
        split
        · trivial
        · split
          · trivial
          · exact ⟨.sampled, fun _ => trivial⟩
      refine keeps_mono (fun _ _ may => may) (fun past chosen _ => ?_) sampled
      cases chosen with
      | false => trivial
      | true =>
        show Keeps _ _ past (mirrorRequest crates conn (totalTimeout route) (buildRequest req.parts .empty) mirror.addr)
        unfold mirrorRequest
        split
        · exact ⟨.failed _ _, fun _ => trivial⟩
        · exact ⟨.spawned _ _ _, fun _ => trivial⟩
    · trivial

theorem mirrors_plain {a : Act} (mirrors : Mirrors a) : plain a = true := by
  cases mirrors <;> rfl

theorem mirrorCopy_plain (crates : Crates) (conn : Conn) (route : RouteConfig) (req : Request Incoming)
    (past : History) :
    Keeps (fun _ a => plain a = true) (fun _ _ => True) past (mirrorCopy crates conn route req) :=
  keeps_mono (fun _ _ => mirrors_plain) (fun _ _ _ => trivial) (mirrorCopy_mirrors crates conn route req past)

theorem readPlugin_plain (past : History) :
    Keeps (fun _ a => plain a = true) (fun _ _ => True) past (readPlugin build route) := by
  unfold readPlugin
  split
  · split
    · exact ⟨rfl, fun _ => trivial⟩
    · trivial
  · trivial

/-! ## Forwarding -/

/-- The actions of the mirror copy and of the attempts. -/
def forwards : Act → Bool
  | .subsecNanos | .spawnMirror _ _ _ | .mirrorFailed _ _ | .getBalancer _ | .fetchAdd _ _ | .isHealthy _
  | .sendRequest _ _ _ | .failUnsent _ _ => true
  | _ => false

theorem pickUpstream_forwards (tried : List String) (past : History) :
    Keeps (fun _ a => forwards a = true) (fun _ _ => True) past (pickUpstream build route tried) := by
  refine keeps_call_bind.mpr ⟨rfl, fun found => ?_⟩
  cases found with
  | none => trivial
  | some lb =>
    refine keeps_bind.mpr (keeps_mono ?_ (fun _ _ _ => trivial) (nextHealthy_keeps lb build.usizeBits tried _))
    rintro _ a (⟨counter, bits, rfl⟩ | ⟨addr, rfl⟩) <;> rfl

theorem proxyRequest_forwards (timeout : Config.Duration) (out : Request UpstreamBody) (addr : String)
    (past : History) :
    Keeps (fun _ a => forwards a = true) (fun _ _ => True) past (proxyRequest crates conn timeout out addr) := by
  unfold proxyRequest
  split
  · exact ⟨rfl, fun _ => trivial⟩
  · refine keeps_call_bind.mpr ⟨rfl, fun outcome => ?_⟩
    cases outcome <;> trivial

theorem forward_forwards (past : History) :
    Keeps (fun _ a => forwards a = true) (fun _ _ => True) past (forward build crates conn route req) := by
  refine keeps_bind.mpr (keeps_mono ?_ ?_ (mirrorCopy_mirrors crates conn route req past))
  · rintro _ a (_ | _ | _) <;> rfl
  · intro past _ _
    refine attempts_rule (fun _ _ _ => True) (fun _ _ _ _ => True) (fun _ => trivial)
      (fun _ => pickUpstream_forwards _ _) (fun _ => trivial) (fun _ _ => ?_) _ (.inr (by simp)) trivial
    exact keeps_mono (fun _ _ may => may) (fun _ _ _ => ⟨fun _ _ => trivial, fun _ => trivial⟩)
      (proxyRequest_forwards _ _ _ _)

/-- Any action but an answer to the client. -/
def silent (a : Act) : Prop := ∀ resp, a ≠ .respond resp

/-- What `handle` returns was not sent before. -/
theorem handle_silent : Only silent (handle build crates conn req) := by
  have forwarded : ∀ route, Only silent (forward build crates conn route req) := by
    refine fun route => only_of_keeps (fun _ a free => ?_) (forward_forwards [])
    rintro resp rfl
    cases free
  refine only_call_bind nofun fun config => ?_
  cases chooseRoute config req.parts with
  | none => exact ⟨nofun, fun _ => trivial⟩
  | some route =>
    have filter : Only silent (readPlugin build route) := by
      unfold readPlugin
      split
      · split
        · exact ⟨nofun, fun _ => trivial⟩
        · trivial
      · trivial
    refine only_bind filter fun plugin => only_call_bind nofun fun _ => ?_
    cases plugin with
    | none => exact forwarded route
    | some plugin =>
      refine only_call_bind nofun fun verdict => ?_
      cases verdict with
      | allow => exact forwarded route
      | deny status => trivial

/-! ## What a denial ends -/

theorem denial_append {past : History} {e : Event Act.Res} (undenied : denial past = none) :
    denial (past ++ [e]) = denialOf e := by
  rw [denial] at undenied
  simp [denial, undenied]

/-- A request that is forwarded is not denied any more. -/
theorem forward_undenied {past : History} (undenied : denial past = none) :
    Keeps (fun _ _ => True) (fun past _ => denial past = none) past (forward build crates conn route req) := by
  refine keeps_mono (fun _ _ may => may) (fun _ _ kept => kept.1)
    (Prog.keeps_invariant (fun past => denial past = none) ?_ (fun _ _ _ _ => trivial) (forward_forwards past) undenied)
  intro past a r undenied free
  rw [denial_append undenied]
  cases a <;> first | rfl | cases free

/-! ## In front of the loop -/

/-- The plain actions keep an invariant, which permits them. -/
structure Steady (may : History → Act → Prop) (inv : History → Prop) : Prop where
  kept : ∀ {a : Act} (past : History) (r : a.Res), inv past → plain a = true → inv (past ++ [⟨a, r⟩])
  permits : ∀ {past : History} {a : Act}, inv past → plain a = true → may past a

section
variable {may : History → Act → Prop} {inv : History → Prop}

theorem steady_keeps (steady : Steady may inv) {α : Type} {before past : History} {p : Program α}
    (plainly : Keeps (fun _ a => plain a = true) (fun _ _ => True) before p) (start : inv past) :
    Keeps may (fun past _ => inv past) past p :=
  keeps_mono (fun _ _ may => may) (fun _ _ kept => kept.1)
    (keeps_stable inv (fun _ _ r here isPlain => steady.kept _ r here isPlain)
      (fun _ _ here isPlain => steady.permits here isPlain) plainly start)

theorem forward_rule (steady : Steady may inv) {fin : History → Response ProxyBody → Prop}
    (loop : ∀ {past}, inv past → Keeps may fin past
      (attempts build crates conn route req.parts (canRetry route req) (effectiveAttempts route req) (some req.body) []))
    {past : History} (start : inv past) : Keeps may fin past (forward build crates conn route req) := by
  refine keeps_bind.mpr (keeps_mono (fun _ _ may => may) ?_
    (steady_keeps steady (mirrorCopy_plain crates conn route req past) start))
  intro past _ here
  exact loop here

/-- The rule of a request on its route: the filter denies it, or the attempts begin with the invariant. -/
theorem serveRoute_rule (steady : Steady may inv) {fin : History → Response ProxyBody → Prop}
    (denied : ∀ {past plugin status resp}, inv past → fin
      (past ++ [⟨.evaluate plugin req.parts.method.asStr req.parts.uri.path, .deny status⟩]) resp)
    (loop : ∀ {past}, inv past → Keeps may fin past
      (attempts build crates conn route req.parts (canRetry route req) (effectiveAttempts route req) (some req.body) []))
    {past : History} (start : inv past) : Keeps may fin past (serveRoute build crates conn route req) := by
  refine keeps_bind.mpr (keeps_mono (fun _ _ may => may) ?_ (steady_keeps steady (readPlugin_plain past) start))
  intro past plugin here
  refine keeps_call_bind.mpr ⟨steady.permits here rfl, fun r => ?_⟩
  have here := steady.kept (a := .dropConfig) past r here rfl
  cases plugin with
  | none => exact forward_rule steady loop here
  | some plugin =>
    refine keeps_call_bind.mpr ⟨steady.permits here rfl, fun verdict => ?_⟩
    cases verdict with
    | allow => exact forward_rule steady loop (steady.kept _ _ here rfl)
    | deny status => exact denied here

end

/-! ## The loop -/

theorem retrying_steady {remaining : Nat} : Steady (May route req) (Retrying route req remaining) where
  kept _ r retrying isPlain := retrying_plain r isPlain retrying
  permits retrying isPlain := ⟨retrying_atMostOnce retrying, plain_expect isPlain⟩

theorem retrying_answer {remaining : Nat} {past : History} (retrying : Retrying route req remaining past)
    (message : String) : AnswerOf route past (errorResponse 502 message) := by
  unfold AnswerOf
  cases last : (outcomes past).getLast? with
  | none => exact ⟨message, rfl⟩
  | some outcome =>
    obtain rfl := retrying.failed outcome (List.mem_of_getLast? last)
    exact ⟨message, rfl⟩

/-- One more attempt. -/
theorem attempted {remaining : Nat} {past : History} (retrying : Retrying route req (remaining + 1) past)
    {e : Event Act.Res} {outcome : Outcome} (out : outcomeOf e = some outcome)
    (rebuilt : canRetry route req = true → streams e = false) :
    AtMostOnce route req (past ++ [e]) ∧ (outcomes (past ++ [e])).getLast? = some outcome ∧
      (canRetry route req = true → outcome = .failed true → Retrying route req remaining (past ++ [e])) := by
  have more : outcomes (past ++ [e]) = outcomes past ++ [outcome] := by simp [outcomes, out]
  have sent : (past ++ [e]).filter streams = [e].filter streams := by
    rw [List.filter_append, retrying.unsent, List.nil_append]
  have left := retrying.left
  have bound : effectiveAttempts route req ≤ route.maxAttempts := effectiveAttempts_le
  refine ⟨⟨?_, ?_, fun once => ?_, ?_⟩, by simp [more], fun again failed => ⟨?_, ?_, ?_⟩⟩
  · rw [more, List.length_append, List.length_singleton]
    omega
  · rw [more, List.dropLast_concat]
    exact retrying.failed
  · rw [effectiveAttempts_single once] at left
    rw [more, List.length_append, List.length_singleton]
    omega
  · rw [sent]
    exact List.length_filter_le streams [e]
  · intro o member
    rw [more] at member
    rcases List.mem_append.mp member with earlier | last
    · exact retrying.failed o earlier
    · rw [List.mem_singleton.mp last, failed]
  · rw [more, List.length_append, List.length_singleton]
    omega
  · rw [sent]
    simp [rebuilt again]

/-- What `proxy_request` returns for an outcome of the pooled client. -/
def returned : Outcome → Outcome
  | .responded resp => .responded { resp with headers := stripHopByHop resp.headers }
  | outcome => outcome

/-- Behind an attempt its outcome is the last. -/
def Tried (route : RouteConfig) (req : Request Incoming) (remaining : Nat) (past : History) (result : Outcome) : Prop :=
  ∃ outcome, result = returned outcome ∧ AtMostOnce route req past ∧ (outcomes past).getLast? = some outcome ∧
    (canRetry route req = true → outcome = .failed true → Retrying route req remaining past)

theorem proxyRequest_tried {remaining : Nat} {past : History} {body : UpstreamBody} (addr : String)
    (retrying : Retrying route req (remaining + 1) past) (rebuilt : canRetry route req = true → body = .empty) :
    Keeps (May route req) (Tried route req remaining) past
      (proxyRequest crates conn (totalTimeout route) (attemptRequest conn route req.parts body) addr) := by
  unfold proxyRequest
  split
  · rename_i e _
    refine keeps_call_bind.mpr ⟨⟨retrying_atMostOnce retrying, by rintro _ ⟨⟩⟩, fun _ => ⟨.failed false, rfl, ?_⟩⟩
    exact attempted retrying rfl fun _ => rfl
  · rename_i out prepared
    refine keeps_call_bind.mpr ⟨⟨retrying_atMostOnce retrying, by rintro _ ⟨⟩⟩, fun outcome => ?_⟩
    have sameBody : out.body = body := by
      obtain ⟨_, _, _, _, _, _, rfl⟩ := prepareRequest_ok prepared
      rfl
    have empty : canRetry route req = true →
        streams ⟨.sendRequest (totalTimeout route) addr out, outcome⟩ = false := by
      intro again
      obtain ⟨parts, held⟩ := out
      obtain rfl : held = .empty := sameBody.trans (rebuilt again)
      rfl
    have tried := attempted retrying (e := ⟨.sendRequest (totalTimeout route) addr out, outcome⟩) rfl empty
    cases outcome <;> exact ⟨_, rfl, tried⟩

/-- What holds when the request was answered. -/
def Answered (route : RouteConfig) (req : Request Incoming) (past : History) (resp : Response ProxyBody) : Prop :=
  AtMostOnce route req past ∧ AnswerOf route past resp

/-- The loop ends after its last attempt, and goes on only behind a failure to connect. -/
theorem attempts_answered (remaining : Nat) {incoming : Option Incoming} (tried : List String) {past : History}
    (retrying : Retrying route req remaining past) (available : canRetry route req = true ∨ incoming ≠ none) :
    Keeps (May route req) (Answered route req) past
      (attempts build crates conn route req.parts (canRetry route req) remaining incoming tried) := by
  refine attempts_rule (fun n _ past => Retrying route req n past) (fun n _ _ past => Retrying route req (n + 1) past)
    ?_ ?_ ?_ ?_ remaining available retrying
  · intro tried past retrying
    exact ⟨retrying_atMostOnce retrying, retrying_answer retrying _⟩
  · intro n tried past retrying
    exact steady_keeps retrying_steady (pickUpstream_plain tried past) retrying
  · intro n tried past retrying
    exact ⟨retrying_atMostOnce retrying, retrying_answer retrying _⟩
  · intro n tried addr past body retrying rebuilt
    refine keeps_mono (fun _ _ may => may) ?_ (proxyRequest_tried addr retrying rebuilt)
    rintro past result ⟨outcome, rfl, once, last, again⟩
    refine ⟨fun rebuildable failed => again rebuildable ?_, fun _ => ⟨once, ?_⟩⟩
    · cases outcome with
      | failed isConnect => exact failed
      | responded resp => cases failed
      | elapsed => cases failed
    · cases outcome with
      | responded resp => simp only [AnswerOf, last, returned, answerTo]
      | elapsed =>
        simp only [AnswerOf, last]
        rfl
      | failed isConnect =>
        cases isConnect with
        | true =>
          simp only [AnswerOf, last]
          exact ⟨_, rfl⟩
        | false =>
          simp only [AnswerOf, last]
          exact ⟨_, rfl⟩

/-- Until the attempts start nothing was attempted. -/
theorem untried_retrying {past : History} (untried : Untried past) :
    Retrying route req (effectiveAttempts route req) past :=
  ⟨by simp [untried.1], by simp [untried.1], untried.2⟩

theorem untried_steady : Steady (May route req) Untried where
  kept past r untried isPlain := by
    obtain ⟨same, sent⟩ := plain_outcomes isPlain r past
    exact ⟨same.trans untried.1, sent.trans untried.2⟩
  permits untried isPlain := ⟨retrying_atMostOnce (untried_retrying untried), plain_expect isPlain⟩

/-! ## The answer -/

/-- Nothing was attempted yet and nothing denied. -/
def Fresh (past : History) : Prop := Untried past ∧ denial past = none

theorem fresh_plain {past : History} {a : Act} {r : a.Res} (fresh : Fresh past) (isPlain : plain a = true)
    (allowed : denialOf ⟨a, r⟩ = none) : Fresh (past ++ [⟨a, r⟩]) := by
  obtain ⟨same, sent⟩ := plain_outcomes isPlain r past
  exact ⟨⟨same.trans fresh.1.1, sent.trans fresh.1.2⟩, (denial_append fresh.2).trans allowed⟩

theorem fresh_permits {past : History} {a : Act} (fresh : Fresh past) (isPlain : plain a = true) :
    May route req past a :=
  untried_steady.permits fresh.1 isPlain

theorem readPlugin_fresh {past : History} (fresh : Fresh past) :
    Keeps (May route req) (fun past _ => Fresh past) past (readPlugin build route) := by
  unfold readPlugin
  split
  · split
    · exact ⟨fresh_permits fresh rfl, fun _ => fresh_plain fresh rfl rfl⟩
    · exact fresh
  · exact fresh

theorem forward_answered {past : History} (fresh : Fresh past) :
    Keeps (May route req) (fun past resp => AtMostOnce route req past ∧ Reply route past resp) past
      (forward build crates conn route req) := by
  have steady : Steady (May route req) Untried := untried_steady
  have answered : Keeps (May route req) (Answered route req) past (forward build crates conn route req) :=
    forward_rule steady (fun untried => attempts_answered _ [] (untried_retrying untried) (.inr (by simp))) fresh.1
  refine keeps_mono (fun _ _ may => may.1) ?_ (keeps_and answered (forward_undenied fresh.2))
  rintro past resp ⟨⟨once, answer⟩, undenied⟩
  refine ⟨once, ?_⟩
  rw [Reply, undenied]
  exact answer

theorem serveRoute_answered {past : History} (fresh : Fresh past) :
    Keeps (May route req) (fun past resp => AtMostOnce route req past ∧ Reply route past resp) past
      (serveRoute build crates conn route req) := by
  refine keeps_bind.mpr (keeps_mono (fun _ _ may => may) ?_ (readPlugin_fresh fresh))
  intro past plugin fresh
  refine keeps_call_bind.mpr ⟨fresh_permits fresh rfl, fun r => ?_⟩
  have fresh : Fresh (past ++ [⟨.dropConfig, r⟩]) := fresh_plain fresh rfl rfl
  cases plugin with
  | none => exact forward_answered fresh
  | some plugin =>
    refine keeps_call_bind.mpr ⟨fresh_permits fresh rfl, fun verdict => ?_⟩
    cases verdict with
    | allow => exact forward_answered (fresh_plain fresh rfl rfl)
    | deny status =>
      have steady : Steady (May route req) Untried := untried_steady
      have untried := steady.kept (a := .evaluate plugin req.parts.method.asStr req.parts.uri.path) _ (.deny status)
        fresh.1 rfl
      refine ⟨retrying_atMostOnce (untried_retrying untried), ?_⟩
      rw [Reply, denial_append fresh.2]
      exact ⟨untried.1, rfl⟩

end

/-- In every history all attempts but one failed to connect, so that at most one can
    have reached an upstream. -/
theorem atMostOnce_reach {route : RouteConfig} {req : Request Incoming} {trace : History}
    (once : AtMostOnce route req trace) : ((outcomes trace).filter mayReach).length ≤ 1 := by
  rcases List.eq_nil_or_concat (outcomes trace) with empty | ⟨earlier, last, split⟩
  · simp [empty]
  · have retried := once.retried
    rw [split, List.concat_eq_append, List.dropLast_concat] at retried
    have nowhere : earlier.filter mayReach = [] := by
      rw [List.filter_eq_nil_iff]
      intro outcome member
      rw [retried outcome member]
      decide
    rw [split, List.concat_eq_append, List.filter_append, nowhere, List.nil_append]
    exact List.length_filter_le mayReach [last]

/-- For every route, request and sequence of outcomes: the attempts are bounded, only a
    failure to connect is followed by another, the client's body is taken once and is
    there when it is, at most one attempt can have reached an upstream, and the answer
    is that of the last attempt, or the denial of a plugin in front of all attempts. -/
theorem handle_at_most_once (build : Build) (crates : Crates) (conn : Conn) (req : Request Incoming)
    (trace : History) (q : Program (Response ProxyBody)) (run : Runs (handle build crates conn req) trace q)
    (route : RouteConfig) (choice : selected req trace = some route) :
    AtMostOnce route req trace ∧ ((outcomes trace).filter mayReach).length ≤ 1 ∧
      (∀ message next, q ≠ .act (.expectFailed message) next) ∧
      ∀ resp, q = .ret resp → Reply route trace resp := by
  obtain ⟨config, rest, rfl, _, served⟩ := handle_runs run choice
  have fresh : Fresh [⟨.readConfig, config⟩] := ⟨⟨rfl, rfl⟩, rfl⟩
  have kept := keeps_runs (serveRoute_answered fresh) served
  cases q with
  | ret resp =>
    refine ⟨kept.1, atMostOnce_reach kept.1, by simp, ?_⟩
    rintro _ ⟨⟩
    exact kept.2
  | act a next =>
    refine ⟨kept.1.1, atMostOnce_reach kept.1.1, ?_, by simp⟩
    rintro message _ ⟨⟩
    exact kept.1.2 message rfl

/-! ## A retried request -/

def pairRoute : RouteConfig :=
  { Samples.route "api" "http://10.0.0.1:80" with
    upstream := [⟨"http://10.0.0.1:80", none⟩, ⟨"http://10.0.0.2:80", none⟩] }

/-- The first upstream refuses the connection and the second answers. -/
def failingOver (a : Act) : Option a.Res :=
  match a with
  | .sendRequest _ addr _ =>
    if addr = "http://10.0.0.1:80" then some (.failed true) else some (.responded ⟨200, Multimap.empty, []⟩)
  | a => Samples.answers Samples.unreloaded (Samples.store (Samples.config [pairRoute]) Table.empty) a

def retriedTrace : History × Program (Response ProxyBody) :=
  Prog.follow failingOver (handle Samples.build Samples.unreloaded Samples.conn (Samples.get Multimap.empty))

theorem handle_at_most_once_retried :
    (outcomes retriedTrace.1).length = 2 ∧ AtMostOnce pairRoute (Samples.get Multimap.empty) retriedTrace.1 :=
  ⟨by decide +kernel, (handle_at_most_once Samples.build Samples.unreloaded Samples.conn (Samples.get Multimap.empty)
    retriedTrace.1 retriedTrace.2 (Prog.runs_follow _ _) pairRoute (by decide +kernel)).1⟩

/-! ## A request that is denied -/

/-- The plugin of the route denies every request. -/
def denying (a : Act) : Option a.Res :=
  Samples.answers Samples.unreloaded
    (Samples.store (Samples.config [Samples.guardedRoute]) (Table.empty.insert "filter.wasm" ⟨[]⟩)) a

/-- There is no attempt, and the answer is neither 502 nor 504 but the denial. -/
theorem denied_unattempted :
    ∃ trace resp, Runs (handle Samples.build Samples.unreloaded Samples.conn (Samples.get Multimap.empty)) trace
      (.ret resp) ∧ selected (Samples.get Multimap.empty) trace = some Samples.guardedRoute ∧ outcomes trace = [] ∧
      resp.status = 403 ∧ ¬ AnswerOf Samples.guardedRoute trace resp := by
  have run := Prog.runs_follow denying
    (handle Samples.build Samples.unreloaded Samples.conn (Samples.get Multimap.empty))
  have ends : (Prog.follow denying
    (handle Samples.build Samples.unreloaded Samples.conn (Samples.get Multimap.empty))).2 =
      .ret (errorResponse 403 "Denied by plugin") := rfl
  have unattempted : outcomes (Prog.follow denying
      (handle Samples.build Samples.unreloaded Samples.conn (Samples.get Multimap.empty))).1 = [] := by
    rw [← List.length_eq_zero_iff]
    decide +kernel
  refine ⟨_, _, ends ▸ run, by decide +kernel, unattempted, rfl, fun answer => ?_⟩
  rw [AnswerOf, unattempted] at answer
  obtain ⟨message, same⟩ := answer
  have status : 403 = 502 := congrArg Response.status same
  omega

end Attempts
end Torana
