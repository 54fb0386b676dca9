import Torana.Allowance
import Torana.Retries

/-!
The time that the attempts of one request take. Each attempt is cut off at the whole of
`timeout.total`; nothing is taken off for the attempts before it.
-/
namespace Torana
open Http Proxy
open Config (RouteConfig Build Duration)
open Upstream (LoadBalancer)
open Prog (Runs Keeps Only keeps_call_bind keeps_mono)
open Allowance (Share Allotted spent)

namespace Timing
open Server Handling

/-! ## Limits -/

/-- The time limit of an attempt, the one that cannot be sent included. -/
def limitOf (route : RouteConfig) : Event Act.Res → Option Duration
  | ⟨.sendRequest timeout _ _, _⟩ => some timeout
  | ⟨.failUnsent _ _, _⟩ => some (totalTimeout route)
  | _ => none

/-- The limits of the attempts, in order. -/
def limits (route : RouteConfig) (trace : History) : List Duration := trace.filterMap (limitOf route)

/-- Durations are measured in nanoseconds. -/
def nanos (d : Duration) : Nat := d * 1000000

/-- How long the attempts took, each within its limit. -/
def Timed (route : RouteConfig) (trace : History) (attempts : List (Share Nat)) : Prop :=
  attempts.map (·.given) = (limits route trace).map nanos

section
variable (crates : Crates) (conn : Conn) (route : RouteConfig) (req : Request Incoming)

/-- An attempt may follow another one: the request is retried, and some address can be sent to. It
    need not be one of the route, since the balancer that is read may be one of another config. -/
def Again : Prop :=
  canRetry route req = true ∧ ∃ addr out, prepareRequest crates.parseUri
    (attemptRequest conn route req.parts .empty) addr conn.clientAddr conn.clientProto = .ok out

/-- Every attempt has the whole of the total timeout, and there is one of them at most unless the
    request is retried. -/
structure Whole (past : History) : Prop where
  whole : ∀ limit ∈ limits route past, limit = totalTimeout route
  once : (limits route past).length ≤ 1 ∨ Again crates conn route req

end

section
variable {build : Build} {crates : Crates} {conn : Conn} {route : RouteConfig} {req : Request Incoming}

theorem limits_plain {past : History} {a : Act} (plain : Attempts.plain a = true) (r : a.Res) :
    limits route (past ++ [⟨a, r⟩]) = limits route past := by
  have unlimited : limitOf route ⟨a, r⟩ = none := by
    cases a <;> first | rfl | cases plain
  simp [limits, unlimited]

/-- What the loop keeps in front of an attempt. -/
structure Ready (crates : Crates) (conn : Conn) (route : RouteConfig) (req : Request Incoming) (past : History) :
    Prop where
  whole : ∀ limit ∈ limits route past, limit = totalTimeout route
  first : limits route past = [] ∨ Again crates conn route req

theorem ready_whole {past : History} (ready : Ready crates conn route req past) : Whole crates conn route req past := by
  refine ⟨ready.whole, ?_⟩
  rcases ready.first with fresh | again
  · exact .inl (by simp [fresh])
  · exact .inr again

theorem ready_steady : Attempts.Steady (fun past _ => Whole crates conn route req past)
    (Ready crates conn route req) where
  kept past r ready plain := by
    have same : limits route (past ++ [⟨_, r⟩]) = limits route past := limits_plain plain r
    exact ⟨by rw [same]; exact ready.whole, by rw [same]; exact ready.first⟩
  permits ready _ := ready_whole ready

/-- One more attempt. -/
theorem ready_attempt {past : History} {e : Event Act.Res} (ready : Ready crates conn route req past)
    (limit : limitOf route e = some (totalTimeout route)) :
    Whole crates conn route req (past ++ [e]) ∧
      (Again crates conn route req → Ready crates conn route req (past ++ [e])) := by
  have more : limits route (past ++ [e]) = limits route past ++ [totalTimeout route] := by simp [limits, limit]
  have whole : ∀ limit ∈ limits route (past ++ [e]), limit = totalTimeout route := by
    intro limit member
    rw [more] at member
    rcases List.mem_append.mp member with earlier | last
    · exact ready.whole limit earlier
    · exact List.mem_singleton.mp last
  refine ⟨⟨whole, ?_⟩, fun again => ⟨whole, .inr again⟩⟩
  rcases ready.first with fresh | again
  · refine .inl ?_
    rw [more, fresh]
    exact Nat.le_refl 1
  · exact .inr again

theorem proxyRequest_ready {past : History} {body : UpstreamBody} (addr : String)
    (ready : Ready crates conn route req past) (rebuilt : canRetry route req = true → body = .empty) :
    Keeps (fun past _ => Whole crates conn route req past)
      (fun past outcome => Whole crates conn route req past ∧
        (canRetry route req = true → outcome = .failed true → Ready crates conn route req past)) past
      (proxyRequest crates conn (totalTimeout route) (attemptRequest conn route req.parts body) addr) := by
  unfold proxyRequest
  split
  · rename_i e _
    have attempt := ready_attempt ready (e := ⟨.failUnsent addr e, ()⟩) rfl
    refine keeps_call_bind.mpr ⟨ready_whole ready, fun _ => ⟨attempt.1, ?_⟩⟩
    rintro _ ⟨⟩
  · rename_i out prepared
    refine keeps_call_bind.mpr ⟨ready_whole ready, fun outcome => ?_⟩
    have attempt := ready_attempt ready (e := ⟨.sendRequest (totalTimeout route) addr out, outcome⟩) rfl
    have again : canRetry route req = true → Again crates conn route req := by
      intro retried
      rw [rebuilt retried] at prepared
      exact ⟨retried, addr, out, prepared⟩
    cases outcome <;> exact ⟨attempt.1, fun retried _ => attempt.2 (again retried)⟩

/-- Every attempt of the loop is given the whole of the total timeout. -/
theorem attempts_whole (remaining : Nat) {incoming : Option Incoming} (tried : List String) {past : History}
    (ready : Ready crates conn route req past) (available : canRetry route req = true ∨ incoming ≠ none) :
    Keeps (fun past _ => Whole crates conn route req past) (fun past _ => Whole crates conn route req past) past
      (attempts build crates conn route req.parts (canRetry route req) remaining incoming tried) := by
  refine attempts_rule (fun _ _ past => Ready crates conn route req past)
    (fun _ _ _ past => Ready crates conn route req past) ready_whole ?_ ready_whole ?_ remaining available ready
  · intro n tried past ready
    exact Attempts.steady_keeps ready_steady (Attempts.pickUpstream_plain tried past) ready
  · intro n tried addr past body ready rebuilt
    exact keeps_mono (fun _ _ may => may) (fun _ _ tried => ⟨tried.2, fun _ => tried.1⟩)
      (proxyRequest_ready addr ready rebuilt)

theorem serveRoute_whole {past : History} (ready : Ready crates conn route req past) :
    Keeps (fun past _ => Whole crates conn route req past) (fun past _ => Whole crates conn route req past) past
      (serveRoute build crates conn route req) := by
  refine Attempts.serveRoute_rule ready_steady ?_ (fun ready => attempts_whole _ [] ready (.inr (by simp))) ready
  intro past plugin status _ ready
  exact ready_whole (ready_steady.kept (a := .evaluate plugin req.parts.method.asStr req.parts.uri.path) past
    (.deny status) ready rfl)

/-- In every history of a request every attempt has the whole of the total timeout. -/
theorem handle_whole {trace : History} {q : Program (Response ProxyBody)}
    (run : Runs (handle build crates conn req) trace q) (choice : selected req trace = some route) :
    Whole crates conn route req trace := by
  obtain ⟨config, rest, rfl, -, served⟩ := handle_runs run choice
  have ready : Ready crates conn route req [⟨.readConfig, config⟩] :=
    ⟨fun _ member => absurd member List.not_mem_nil, .inl rfl⟩
  have kept := Prog.keeps_runs (serveRoute_whole ready) served
  cases q with
  | ret resp => exact kept
  | act a next => exact kept.1

/-! ## Two attempts -/

theorem limits_nil {trace : History} (plain : ∀ e ∈ trace, Attempts.plain e.act = true) : limits route trace = [] := by
  refine List.filterMap_eq_nil_iff.mpr ?_
  intro e member
  have here := plain e member
  obtain ⟨a, r⟩ := e
  cases a <;> first | rfl | cases here

/-- A balancer with one upstream. -/
def only (addr : String) : LoadBalancer := ⟨[⟨addr, 1⟩], 0⟩

/-- The one upstream of a balancer is chosen, also when it was tried. -/
theorem pickUpstream_only (build : Build) (route : RouteConfig) (addr : String) (tried : List String) :
    ∃ choice, Runs (pickUpstream build route tried) choice (.ret (some addr)) ∧
      ∀ e ∈ choice, Attempts.plain e.act = true := by
  have keeps := nextHealthy_keeps (only addr) build.usizeBits tried []
  have answered : Only (fun a => ∃ _ : a.Res, Chooses a) ((only addr).nextHealthy build.usizeBits tried) := by
    refine Prog.only_of_keeps ?_ keeps
    rintro _ a (⟨counter, bits, rfl⟩ | ⟨one, rfl⟩)
    · exact ⟨(0 : Nat), .inl ⟨counter, bits, rfl⟩⟩
    · exact ⟨true, .inr ⟨one, rfl⟩⟩
  obtain ⟨reads, picked, run, chooses⟩ : ∃ reads picked, Runs ((only addr).nextHealthy build.usizeBits tried) reads
      (.ret picked) ∧ ∀ e ∈ reads, Chooses e.act := Prog.only_ends answered
  obtain ⟨listed, filled⟩ := Prog.keeps_runs keeps run
  obtain ⟨u, rfl⟩ : ∃ u, picked = some u := by
    cases picked with
    | none => cases filled rfl
    | some u => exact ⟨u, rfl⟩
  obtain rfl : u = ⟨addr, 1⟩ := List.mem_singleton.mp (listed u rfl)
  have chosen : Runs (pickUpstream build route tried) (⟨.getBalancer route.name, some (only addr)⟩ :: (reads ++ []))
      (.ret (some addr)) := by
    unfold pickUpstream
    rw [call, Prog.call_bind, Prog.runs_cons]
    exact Prog.runs_then run (.nil _)
  refine ⟨_, chosen, ?_⟩
  intro e member
  rcases List.mem_cons.mp member with rfl | read
  · rfl
  · rw [List.append_nil] at read
    rcases chooses e read with ⟨counter, bits, same⟩ | ⟨one, same⟩
    · rw [same]
      rfl
    · rw [same]
      rfl

/-- An attempt that fails to connect is followed by the rest of the loop. -/
theorem attempts_failed (build : Build) {addr : String} {out : Request UpstreamBody}
    (prepared : prepareRequest crates.parseUri (attemptRequest conn route req.parts .empty) addr conn.clientAddr
      conn.clientProto = .ok out) (remaining : Nat) (incoming : Option Incoming) (tried : List String) :
    ∃ trace, limits route trace = [totalTimeout route] ∧
      Runs (attempts build crates conn route req.parts true (remaining + 1) incoming tried) trace
        (attempts build crates conn route req.parts true remaining incoming (tried ++ [addr])) := by
  obtain ⟨choice, picked, plain⟩ := pickUpstream_only build route addr tried
  have sent : Runs (proxyRequest crates conn (totalTimeout route) (attemptRequest conn route req.parts .empty) addr)
      [⟨.sendRequest (totalTimeout route) addr out, .failed true⟩] (.ret (.failed true)) := by
    unfold proxyRequest
    rw [prepared]
    exact .cons _ (.nil _)
  refine ⟨choice ++ ([⟨.sendRequest (totalTimeout route) addr out, .failed true⟩] ++ []), ?_, ?_⟩
  · rw [limits, List.filterMap_append, ← limits, limits_nil plain]
    rfl
  · obtain ⟨body, taken, rebuilt⟩ := takeBody_eq (.inl rfl : true = true ∨ incoming ≠ none)
    obtain rfl := rebuilt rfl
    rw [attempts]
    refine Prog.runs_then picked ?_
    simp only [taken, Prog.ret_bind, if_true]
    exact Prog.runs_then sent (.nil _)

/-- A request that may be retried can come to a second attempt. -/
theorem attempts_twice (build : Build) (again : Again crates conn route req) (incoming : Option Incoming) :
    ∃ trace q, limits route trace = [totalTimeout route, totalTimeout route] ∧
      Runs (attempts build crates conn route req.parts (canRetry route req) (effectiveAttempts route req) incoming [])
        trace q := by
  obtain ⟨retried, addr, out, prepared⟩ := again
  obtain ⟨n, enough⟩ : ∃ n, effectiveAttempts route req = n + 2 := by
    have several : 1 < route.maxAttempts := by
      rw [canRetry, Bool.and_eq_true, decide_eq_true_eq] at retried
      exact retried.1
    refine ⟨route.maxAttempts - 2, ?_⟩
    rw [effectiveAttempts, if_pos retried]
    omega
  rw [retried, enough]
  obtain ⟨first, limit, run⟩ := attempts_failed build prepared (n + 1) incoming []
  obtain ⟨second, limit', run'⟩ := attempts_failed build prepared n incoming ([] ++ [addr])
  refine ⟨first ++ second, _, ?_, Prog.runs_append run run'⟩
  rw [limits, List.filterMap_append, ← limits, ← limits, limit, limit']
  rfl

theorem mirrorCopy_ends (crates : Crates) (conn : Conn) (route : RouteConfig) (req : Request Incoming) :
    ∃ trace, Runs (mirrorCopy crates conn route req) trace (.ret ()) ∧ ∀ e ∈ trace, Attempts.plain e.act = true := by
  have answered : Only (fun a => ∃ _ : a.Res, Attempts.Mirrors a) (mirrorCopy crates conn route req) := by
    refine Prog.only_of_keeps ?_ (Attempts.mirrorCopy_mirrors crates conn route req [])
    intro _ a mirrors
    cases mirrors with
    | sampled => exact ⟨(0 : Nat), .sampled⟩
    | spawned timeout addr out => exact ⟨(), .spawned timeout addr out⟩
    | failed addr error => exact ⟨(), .failed addr error⟩
  obtain ⟨trace, ⟨⟩, run, mirrors⟩ : ∃ trace value, Runs (mirrorCopy crates conn route req) trace (.ret value) ∧
      ∀ e ∈ trace, Attempts.Mirrors e.act := Prog.only_ends answered
  exact ⟨trace, run, fun e member => Attempts.mirrors_plain (mirrors e member)⟩

theorem readPlugin_none (build : Build) (route : RouteConfig) :
    ∃ trace, Runs (readPlugin build route) trace (.ret none) ∧ ∀ e ∈ trace, Attempts.plain e.act = true := by
  unfold readPlugin
  split
  · split
    · exact ⟨[⟨.getPlugin _, none⟩], .cons _ (.nil _), by simp [Attempts.plain]⟩
    · exact ⟨[], .nil _, by simp⟩
  · exact ⟨[], .nil _, by simp⟩

/-- The whole request comes to it. -/
theorem handle_twice (build : Build) (again : Again crates conn route req) {config : Config}
    (choice : chooseRoute config req.parts = some route) :
    ∃ trace q, Runs (handle build crates conn req) trace q ∧ selected req trace = some route ∧
      limits route trace = [totalTimeout route, totalTimeout route] := by
  obtain ⟨guard, read, plainGuard⟩ := readPlugin_none build route
  obtain ⟨copy, copied, plainCopy⟩ := mirrorCopy_ends crates conn route req
  obtain ⟨loop, q, twice, run⟩ := attempts_twice build again (some req.body)
  have forwarded : Runs (forward build crates conn route req) (copy ++ loop) q := Prog.runs_then copied run
  have dropped : Runs (serveRoute build crates conn route req) (guard ++ ⟨.dropConfig, ()⟩ :: (copy ++ loop)) q := by
    unfold serveRoute
    refine Prog.runs_then read ?_
    rw [call, Prog.call_bind, Prog.runs_cons]
    exact forwarded
  refine ⟨⟨.readConfig, config⟩ :: (guard ++ ⟨.dropConfig, ()⟩ :: (copy ++ loop)), q, ?_, choice, ?_⟩
  · unfold handle
    rw [call, Prog.call_bind, Prog.runs_cons]
    simp only [choice]
    exact dropped
  · have guards : limits route guard = [] := limits_nil plainGuard
    have copies : limits route copy = [] := limits_nil plainCopy
    simp only [limits] at guards copies twice ⊢
    simp only [List.filterMap_cons, List.filterMap_append, guards, copies, twice, limitOf]
    rfl

/-! ## The total timeout -/

/-- The attempts of some history of the request on the route, with the time that each took. -/
def Measured (build : Build) (crates : Crates) (conn : Conn) (req : Request Incoming) (route : RouteConfig)
    (attempts : List (Share Nat)) : Prop :=
  ∃ trace q, Runs (handle build crates conn req) trace q ∧ selected req trace = some route ∧ Timed route trace attempts

/-- The attempts stay within the total timeout, each given no more than the earlier ones left of it. -/
def Bounded (route : RouteConfig) (attempts : List (Share Nat)) : Prop :=
  Allotted (nanos (totalTimeout route)) attempts ∧ spent attempts ≤ nanos (totalTimeout route)

theorem bounded_iff_allotted {attempts : List (Share Nat)} :
    Bounded route attempts ↔ Allotted (nanos (totalTimeout route)) attempts :=
  ⟨fun bounded => bounded.1, fun allotted => ⟨allotted, Allowance.spent_le allotted⟩⟩

theorem measured_whole {attempts : List (Share Nat)} (measured : Measured build crates conn req route attempts) :
    (∀ one ∈ attempts, one.given = nanos (totalTimeout route)) ∧
      (attempts.length ≤ 1 ∨ Again crates conn route req) ∧ ∃ config, chooseRoute config req.parts = some route := by
  obtain ⟨trace, q, run, choice, timed⟩ := measured
  have whole := handle_whole run choice
  obtain ⟨config, -, chosen⟩ := Option.bind_eq_some_iff.mp choice
  refine ⟨?_, ?_, config, chosen⟩
  · intro one member
    have given : one.given ∈ (limits route trace).map nanos := by
      rw [← timed]
      exact List.mem_map_of_mem member
    obtain ⟨limit, listed, same⟩ := List.mem_map.mp given
    rw [← same, whole.whole limit listed]
  · have count : attempts.length = (limits route trace).length := by
      have lengths := congrArg List.length timed
      rwa [List.length_map, List.length_map] at lengths
    rw [count]
    exact whole.once

/-- A request that may be retried can use almost all of the time twice. -/
theorem again_overruns (again : Again crates conn route req) (positive : 0 < totalTimeout route) {config : Config}
    (choice : chooseRoute config req.parts = some route) :
    ∃ attempts, Measured build crates conn req route attempts ∧ ¬Bounded route attempts := by
  obtain ⟨trace, q, run, chosen, twice⟩ := handle_twice build again choice
  let late : Share Nat := ⟨nanos (totalTimeout route), nanos (totalTimeout route) - 1, Nat.sub_le _ 1⟩
  refine ⟨[late, late], ⟨trace, q, run, chosen, ?_⟩, ?_⟩
  · rw [Timed, twice]
    rfl
  · rw [bounded_iff_allotted, Allowance.allotted_iff_idle (by simp [late])]
    intro idle
    have used : nanos (totalTimeout route) - 1 = 0 := idle late (List.mem_singleton.mpr rfl)
    have large : 2 ≤ nanos (totalTimeout route) := by
      rw [nanos]
      have one : 1 ≤ totalTimeout route := positive
      exact Nat.le_trans (by decide) (Nat.mul_le_mul_right 1000000 one)
    omega

end

/-- In a history of a request the attempts are bounded by the total timeout exactly when no attempt
    that another one follows takes any time; and in every history they are bounded exactly when
    none follows another, or no time is given to any. -/
theorem total_bounded_iff (build : Build) (crates : Crates) (conn : Conn) (req : Request Incoming)
    (route : RouteConfig) :
    (∀ attempts, Measured build crates conn req route attempts →
      (Bounded route attempts ↔ ∀ one ∈ attempts.dropLast, one.used = 0)) ∧
    ((∀ attempts, Measured build crates conn req route attempts → Bounded route attempts) ↔
      ¬(Again crates conn route req ∧ 0 < totalTimeout route ∧
        ∃ config, chooseRoute config req.parts = some route)) := by
  have bounded_iff : ∀ attempts, Measured build crates conn req route attempts →
      (Bounded route attempts ↔ ∀ one ∈ attempts.dropLast, one.used = 0) := by
    intro attempts measured
    rw [bounded_iff_allotted]
    exact Allowance.allotted_iff_idle (measured_whole measured).1
  refine ⟨bounded_iff, ?_⟩
  constructor
  · rintro bounded ⟨again, positive, config, choice⟩
    obtain ⟨attempts, measured, late⟩ := again_overruns again positive choice
    exact late (bounded attempts measured)
  · intro calm attempts measured
    obtain ⟨whole, once, chosen⟩ := measured_whole measured
    refine (bounded_iff attempts measured).mpr ?_
    intro one member
    by_cases positive : 0 < totalTimeout route
    · have single : attempts.length ≤ 1 := once.resolve_right fun again => calm ⟨again, positive, chosen⟩
      have empty : attempts.dropLast = [] := by
        rw [← List.length_eq_zero_iff, List.length_dropLast]
        omega
      rw [empty] at member
      cases member
    · have given := whole one (List.dropLast_subset _ member)
      have within := one.within
      have zero : totalTimeout route = 0 := Nat.le_zero.mp (Nat.not_lt.mp positive)
      rw [given, zero] at within
      exact Nat.le_zero.mp within

/-! ## Two slow attempts -/

def limitedRoute : RouteConfig := { Attempts.pairRoute with timeoutTotal := some "30s" }

/-- The first upstream refuses the connection and the second answers. -/
def limitedAnswers (a : Act) : Option a.Res :=
  match a with
  | .readConfig => some (Samples.config [limitedRoute])
  | a => Attempts.failingOver a

def limitedTrace : History × Program (Response ProxyBody) :=
  Prog.follow limitedAnswers (handle Samples.build Samples.unreloaded Samples.conn (Samples.get Multimap.empty))

/-- Two attempts under 30 seconds each: the first takes some seconds, the second 20. -/
def shares (first : Nat) (within : first ≤ 30) : List (Share Nat) :=
  [⟨30000000000, first * 1000000000, by omega⟩, ⟨30000000000, 20000000000, by omega⟩]

theorem shares_measured (first : Nat) (within : first ≤ 30) :
    Measured Samples.build Samples.unreloaded Samples.conn (Samples.get Multimap.empty) limitedRoute
      (shares first within) := by
  have given : limits limitedRoute limitedTrace.1 = [30000, 30000] := by decide +kernel
  refine ⟨limitedTrace.1, limitedTrace.2, Prog.runs_follow _ _, by decide +kernel, ?_⟩
  rw [Timed, given]
  rfl

/-- The connection is refused at once. -/
theorem total_bounded_iff_prompt : Bounded limitedRoute (shares 0 (by decide)) :=
  ((total_bounded_iff Samples.build Samples.unreloaded Samples.conn (Samples.get Multimap.empty) limitedRoute).1 _
    (shares_measured 0 (by decide))).mpr (by decide)

/-- The connection is refused after 20 seconds: the request takes 40 seconds of its 30. -/
theorem attempts_overrun :
    Measured Samples.build Samples.unreloaded Samples.conn (Samples.get Multimap.empty) limitedRoute
      (shares 20 (by decide)) ∧
    totalTimeout limitedRoute = 30000 ∧ spent (shares 20 (by decide)) = 40000000000 ∧
    ¬Bounded limitedRoute (shares 20 (by decide)) := by
  refine ⟨shares_measured 20 (by decide), by decide +kernel, by decide, ?_⟩
  rintro ⟨-, within⟩
  have total : nanos (totalTimeout limitedRoute) = 30000000000 := by decide +kernel
  rw [total] at within
  exact absurd within (by decide)

end Timing
end Torana
