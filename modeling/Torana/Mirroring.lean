import Torana.OverrideOrder
import Torana.Targets

/-!
The mirror copy beside the attempts. Both are made of the head that the client sent, but the
copy is made before the overrides of the route and the identity are put into it, so that the
mirror gets what the route takes away from its upstreams and not what it gives them.
-/
namespace Torana
open Http Proxy
open Config (RouteConfig Build)
open Prog (Runs keeps_event)

namespace Mirroring
open Server Handling Overrides
open AbsoluteUris (Cuts targetText)
open Boundary (chainText)

/-! ## Copies -/

/-- The copy is the request, but for the authority of the URI and the host. -/
structure Duplicates (copy out : Request UpstreamBody) : Prop where
  method : copy.parts.method = out.parts.method
  target : copy.parts.uri.pathAndQuery = out.parts.uri.pathAndQuery
  headers : ∀ name, name ≠ .host → copy.parts.headers.getAll name = out.parts.headers.getAll name

/-- The head of an attempt with what the proxy sets itself. -/
def attemptedHeaders (conn : Conn) (route : RouteConfig) (headers : HeaderMap) : HeaderMap :=
  setIdentity (overriddenHeaders route headers) conn.clientCertFingerprint

/-- What goes beyond the connection under a name. -/
def carried (headers : HeaderMap) (name : HeaderName) : List HeaderValue :=
  if name ∈ connectionOptions headers then [] else headers.getAll name

/-- The text of the first value. -/
def firstText (values : List HeaderValue) : Option String := values.head?.bind HeaderValue.toStr

/-- What the proxy sets itself changes nothing that goes beyond the connection. -/
structure Unchanged (conn : Conn) (route : RouteConfig) (headers : HeaderMap) : Prop where
  fields : ∀ name, name ∉ hopByHopHeaders → name ∉ forwardingHeaders →
    carried headers name = carried (attemptedHeaders conn route headers) name
  chain : firstText (carried headers .xForwardedFor) =
    firstText (carried (attemptedHeaders conn route headers) .xForwardedFor)

/-- The same, read off the overrides of the route, the fields of the client and its identity. -/
structure Harmless (conn : Conn) (route : RouteConfig) (headers : HeaderMap) : Prop where
  overrides : ∀ entry ∈ entries route, ∀ name, HeaderName.fromBytes entry.1 = some name → ¬reserved name →
    name ∉ connectionOptions headers → overriddenValues entry.2 (headers.getAll name) = headers.getAll name
  identity : HeaderName.xClientCertFingerprint ∉ connectionOptions headers →
    headers.getAll .xClientCertFingerprint =
      conn.clientCertFingerprint.elim [] fun fingerprint => [fingerprint.value]
  chain : ∀ entry ∈ entries route, HeaderName.fromBytes entry.1 = some .xForwardedFor →
    HeaderName.xForwardedFor ∉ connectionOptions headers →
    firstText (overriddenValues entry.2 (headers.getAll .xForwardedFor)) = firstText (headers.getAll .xForwardedFor)

section
variable {conn : Conn} {route : RouteConfig} {headers : HeaderMap}

theorem getAll_attempted (distinct : DistinctNames route) {entry : String × String} (member : entry ∈ entries route)
    {name : HeaderName} (named : HeaderName.fromBytes entry.1 = some name) (other : name ≠ .xClientCertFingerprint) :
    (attemptedHeaders conn route headers).getAll name = overriddenValues entry.2 (headers.getAll name) := by
  rw [attemptedHeaders, Identity.getAll_setIdentity_ne _ _ other, overriddenHeaders_eq]
  exact getAll_overrides_mem distinct member named headers

theorem getAll_attempted_ne {name : HeaderName}
    (free : ∀ entry ∈ entries route, HeaderName.fromBytes entry.1 ≠ some name) (other : name ≠ .xClientCertFingerprint) :
    (attemptedHeaders conn route headers).getAll name = headers.getAll name := by
  rw [attemptedHeaders, Identity.getAll_setIdentity_ne _ _ other, overriddenHeaders_eq]
  exact getAll_overrides_ne _ headers free

/-- Without an override of `Connection` itself the fields are what decides. -/
theorem unchanged_iff (distinct : DistinctNames route)
    (kept : ∀ entry ∈ entries route, HeaderName.fromBytes entry.1 ≠ some .connection) :
    Unchanged conn route headers ↔ Harmless conn route headers := by
  have options : connectionOptions (attemptedHeaders conn route headers) = connectionOptions headers :=
    connectionOptions_congr (getAll_attempted_ne kept (by decide))
  have identity : (attemptedHeaders conn route headers).getAll .xClientCertFingerprint =
      conn.clientCertFingerprint.elim [] fun fingerprint => [fingerprint.value] := Identity.getAll_setIdentity_self _ _
  constructor
  · rintro ⟨fields, chain⟩
    refine ⟨fun entry member name named free passes => ?_, fun passes => ?_, fun entry member named passes => ?_⟩
    · simp only [reserved, not_or] at free
      have same := fields name free.1 free.2.1
      rw [carried, carried, options, if_neg passes, if_neg passes,
        getAll_attempted distinct member named free.2.2] at same
      exact same.symm
    · have same := fields .xClientCertFingerprint (by decide) (by decide)
      rw [carried, carried, options, if_neg passes, if_neg passes, identity] at same
      exact same
    · rw [carried, carried, options, if_neg passes, if_neg passes,
        getAll_attempted distinct member named (by decide)] at chain
      exact chain.symm
  · intro harmless
    refine ⟨fun name endToEnd other => ?_, ?_⟩
    · rw [carried, carried, options]
      split
      · rfl
      rename_i passes
      by_cases own : name = .xClientCertFingerprint
      · subst own
        rw [identity, harmless.identity passes]
      · by_cases listed : ∃ entry ∈ entries route, HeaderName.fromBytes entry.1 = some name
        · obtain ⟨entry, member, named⟩ := listed
          have free : ¬reserved name := by simp [reserved, endToEnd, other, own]
          rw [getAll_attempted distinct member named own, harmless.overrides entry member name named free passes]
        · rw [getAll_attempted_ne (fun entry member named => listed ⟨entry, member, named⟩) own]
    · rw [carried, carried, options]
      split
      · rfl
      rename_i passes
      by_cases listed : ∃ entry ∈ entries route, HeaderName.fromBytes entry.1 = some .xForwardedFor
      · obtain ⟨entry, member, named⟩ := listed
        rw [getAll_attempted distinct member named (by decide), harmless.chain entry member named passes]
      · rw [getAll_attempted_ne (fun entry member named => listed ⟨entry, member, named⟩) (by decide)]

end

/-- The target behind the authority that an address gives. -/
def askedAt (addr target : String) : Option (List Char) :=
  (upstreamHostPort addr).toOption.map fun split => targetText (s!"{split.1}:{split.2}".toList ++ target.toList)

/-! ## The chain -/

theorem chainText_inj {a b : Option String} {ip : Net.IpAddr} (same : chainText a ip = chainText b ip) : a = b := by
  have comma : ∀ text : String, chainText (some text) ip ≠ chainText none ip := by
    intro text same
    have held : ',' ∈ (chainText (some text) ip).toList := by simp [Boundary.toList_chain]
    rw [same] at held
    exact Boundary.addr_no_comma ip held
  cases a with
  | none =>
    cases b with
    | none => rfl
    | some text => exact absurd same.symm (comma text)
  | some text =>
    cases b with
    | none => exact absurd same (comma text)
    | some other =>
      have lists := congrArg String.toList same
      simp only [chainText, String.toList_append, List.append_cancel_right_eq] at lists
      exact congrArg some (String.toList_injective lists)

theorem chain_iff {a b : HeaderMap} {clientAddr : Net.SocketAddr} {proto : ClientProto} :
    (appendForwardedHeaders a clientAddr proto).getAll .xForwardedFor =
        (appendForwardedHeaders b clientAddr proto).getAll .xForwardedFor ↔
      firstText (a.getAll .xForwardedFor) = firstText (b.getAll .xForwardedFor) := by
  obtain ⟨left, madeA, -, oneA⟩ := Boundary.getAll_chain a clientAddr proto
  obtain ⟨right, madeB, -, oneB⟩ := Boundary.getAll_chain b clientAddr proto
  rw [oneA, oneB, firstText, firstText]
  unfold Multimap.get at madeA madeB
  constructor
  · intro same
    cases same
    exact chainText_inj (Boundary.fromStr_inj madeA madeB)
  · intro same
    rw [same, madeB] at madeA
    cases madeA
    rfl

/-! ## Two requests of one head -/

section
variable {parseUri : UriParser} {clientAddr : Net.SocketAddr} {proto : ClientProto}

theorem prepared_proto {req out : Request UpstreamBody} {addr : String}
    (prepared : prepareRequest parseUri req addr clientAddr proto = .ok out) :
    out.parts.headers.getAll .xForwardedProto = [proto.value] := by
  obtain ⟨host, port, uri, value, -, -, rfl⟩ := prepareRequest_ok prepared
  simp only [appendForwardedHeaders, Multimap.getAll_insert, if_true]

theorem prepared_carried {req out : Request UpstreamBody} {addr : String}
    (prepared : prepareRequest parseUri req addr clientAddr proto = .ok out) {name : HeaderName}
    (other : name ∉ forwardingHeaders) :
    out.parts.headers.getAll name = if name ∈ hopByHopHeaders then [] else carried req.parts.headers name := by
  rw [getAll_prepareRequest prepared other, carried]
  by_cases known : name ∈ hopByHopHeaders
  · simp [known]
  · simp [known]

theorem prepared_chain {req copy : Request UpstreamBody} {addr addr' : String} {req' out : Request UpstreamBody}
    (first : prepareRequest parseUri req addr clientAddr proto = .ok copy)
    (second : prepareRequest parseUri req' addr' clientAddr proto = .ok out) :
    copy.parts.headers.getAll .xForwardedFor = out.parts.headers.getAll .xForwardedFor ↔
      firstText (carried req.parts.headers .xForwardedFor) = firstText (carried req'.parts.headers .xForwardedFor) := by
  have endToEnd : HeaderName.xForwardedFor ∉ hopByHopHeaders := by decide
  have notHost : HeaderName.xForwardedFor ≠ .host := by decide
  obtain ⟨host, port, uri, value, -, -, rfl⟩ := prepareRequest_ok first
  obtain ⟨host', port', uri', value', -, -, rfl⟩ := prepareRequest_ok second
  simp only
  rw [chain_iff]
  simp only [Multimap.getAll_insert, if_neg notHost, getAll_strip, endToEnd, false_or, carried]

/-- The headers of two requests are the same but for the host exactly when what goes beyond the
    connection is the same. -/
theorem prepared_headers_iff {req copy req' out : Request UpstreamBody} {addr addr' : String}
    (first : prepareRequest parseUri req addr clientAddr proto = .ok copy)
    (second : prepareRequest parseUri req' addr' clientAddr proto = .ok out) :
    (∀ name, name ≠ .host → copy.parts.headers.getAll name = out.parts.headers.getAll name) ↔
      (∀ name, name ∉ hopByHopHeaders → name ∉ forwardingHeaders →
        carried req.parts.headers name = carried req'.parts.headers name) ∧
      firstText (carried req.parts.headers .xForwardedFor) = firstText (carried req'.parts.headers .xForwardedFor) := by
  constructor
  · intro same
    refine ⟨?_, (prepared_chain first second).mp (same _ (by decide))⟩
    intro name endToEnd other
    have notHost : name ≠ .host := by
      rintro rfl
      exact other (by decide)
    have values := same name notHost
    rwa [prepared_carried first other, prepared_carried second other, if_neg endToEnd, if_neg endToEnd] at values
  · rintro ⟨fields, chain⟩ name notHost
    by_cases forwarding : name ∈ forwardingHeaders
    · simp only [forwardingHeaders, List.mem_cons, List.not_mem_nil, or_false] at forwarding
      rcases forwarding with rfl | rfl | rfl
      · exact absurd rfl notHost
      · exact (prepared_chain first second).mpr chain
      · rw [prepared_proto first, prepared_proto second]
    · rw [prepared_carried first forwarding, prepared_carried second forwarding]
      by_cases known : name ∈ hopByHopHeaders
      · rw [if_pos known, if_pos known]
      · rw [if_neg known, if_neg known, fields name known forwarding]

theorem prepared_asked (cuts : Cuts parseUri) {req out : Request UpstreamBody} {addr target : String}
    (asked : req.parts.uri.pathAndQuery.getD "/" = target)
    (prepared : prepareRequest parseUri req addr clientAddr proto = .ok out) :
    out.parts.uri.pathAndQuery = (askedAt addr target).map String.ofList := by
  obtain ⟨host, port, _, _, split, -, -⟩ := prepareRequest_ok prepared
  rw [Targets.prepared_uri cuts prepared asked split, askedAt, split]
  rfl

end

/-! ## A mirrored request -/

/-- The mirror copy of a request is a duplicate of its attempts exactly when both destinations are
    asked for the same and neither an override of the route nor the identity changes a field that
    goes beyond the connection; as a duplicate it has none of the fields that the route removes. -/
theorem mirror_duplicates_iff (build : Build) (crates : Crates) (conn : Conn) (cuts : Cuts crates.parseUri)
    (req : Request Incoming) (trace : History) (q : Program (Response ProxyBody))
    (run : Runs (handle build crates conn req) trace q) (mirrored attempted : Event Act.Res)
    (first : mirrored ∈ trace) (second : attempted ∈ trace) (timeout timeout' : Config.Duration) (mirror addr : String)
    (copy out : Request UpstreamBody) (copies : mirrored.act = .spawnMirror timeout mirror copy)
    (sends : attempted.act = .sendRequest timeout' addr out) :
    ∃ route, selected req trace = some route ∧
      (Duplicates copy out ↔ askedAt mirror (req.parts.uri.pathAndQuery.getD "/") =
          askedAt addr (req.parts.uri.pathAndQuery.getD "/") ∧ Unchanged conn route req.parts.headers) ∧
      (DistinctNames route → Duplicates copy out → ∀ entry ∈ entries route, entry.2 = "" →
        ∀ name, HeaderName.fromBytes entry.1 = some name → ¬reserved name → copy.parts.headers.getAll name = []) := by
  obtain ⟨before, after, split⟩ := List.append_of_mem first
  obtain ⟨before', after', split'⟩ := List.append_of_mem second
  have mayCopy := keeps_event handle_keeps (split ▸ run)
  have maySend := keeps_event handle_keeps (split' ▸ run)
  rw [copies] at mayCopy
  rw [sends] at maySend
  obtain ⟨_, _, _, _, _, copied⟩ := mayCopy
  obtain ⟨route, body, serving, _, prepared⟩ := maySend
  have choice : selected req trace = some route := by
    rw [split']
    exact selected_append _ serving.1
  refine ⟨route, choice, ?_, ?_⟩
  · have headers := prepared_headers_iff copied prepared
    have asked : copy.parts.uri.pathAndQuery = out.parts.uri.pathAndQuery ↔
        askedAt mirror (req.parts.uri.pathAndQuery.getD "/") = askedAt addr (req.parts.uri.pathAndQuery.getD "/") := by
      rw [prepared_asked cuts rfl copied, prepared_asked cuts rfl prepared]
      exact (Option.map_injective fun _ _ => String.ofList_injective).eq_iff
    have method : copy.parts.method = out.parts.method := by
      obtain ⟨_, _, _, _, _, _, rfl⟩ := prepareRequest_ok copied
      obtain ⟨_, _, _, _, _, _, rfl⟩ := prepareRequest_ok prepared
      rfl
    constructor
    · intro same
      obtain ⟨fields, chain⟩ := headers.mp same.headers
      exact ⟨asked.mp same.target, fields, chain⟩
    · rintro ⟨target, fields, chain⟩
      exact ⟨method, asked.mpr target, headers.mpr ⟨fields, chain⟩⟩
  · intro distinct same entry member empty name named free
    have notHost : name ≠ .host := by
      rintro rfl
      exact free (.inr (.inl (by decide)))
    rw [same.headers name notHost]
    exact attempt_removed distinct prepared member empty named free

/-! ## A field that the route removes -/

def authorization : HeaderName := ⟨"authorization", by decide⟩
def credentials : HeaderValue := ⟨Text.asBytes "Basic c2VjcmV0".toList, by decide⟩

/-- A route with a mirror that keeps the credentials of its clients from its upstream. -/
def guardedRoute : RouteConfig :=
  { Identity.mirroredRoute with headers := ⟨some ⟨[("Authorization", "")], by simp⟩, none⟩ }

def crates : Crates := { Samples.unreloaded with parseUri := AbsoluteUris.parse }

/-- What `handle` performs for a request with credentials, with upstreams that answer. -/
def guardedTrace (route : RouteConfig) : History × Program (Response ProxyBody) :=
  Prog.follow (Samples.answers crates (Samples.store (Samples.config [route]) Table.empty))
    (handle Samples.build crates Samples.conn (Samples.get (Samples.field authorization credentials)))

theorem guardedTrace_runs (route : RouteConfig) :
    Runs (handle Samples.build crates Samples.conn (Samples.get (Samples.field authorization credentials)))
      (guardedTrace route).1 (guardedTrace route).2 := Prog.runs_follow _ _

/-- The copy that an event sends, with the mirror's address. -/
def copyOf (e : Event Act.Res) : Option (String × Request UpstreamBody) :=
  match e.act with
  | .spawnMirror _ addr copy => some (addr, copy)
  | _ => none

theorem copyOf_act {e : Event Act.Res} {addr : String} {copy : Request UpstreamBody}
    (sent : copyOf e = some (addr, copy)) : ∃ timeout, e.act = .spawnMirror timeout addr copy := by
  unfold copyOf at sent
  split at sent
  · rename_i timeout addr' copy' act
    cases sent
    exact ⟨timeout, act⟩
  · cases sent

/-- The attempt that an event sends, with the upstream's address. -/
def sentOf (e : Event Act.Res) : Option (String × Request UpstreamBody) :=
  match e.act with
  | .sendRequest _ addr out => some (addr, out)
  | _ => none

theorem sentOf_act {e : Event Act.Res} {addr : String} {out : Request UpstreamBody}
    (sent : sentOf e = some (addr, out)) : ∃ timeout, e.act = .sendRequest timeout addr out := by
  unfold sentOf at sent
  split at sent
  · rename_i timeout addr' out' act
    cases sent
    exact ⟨timeout, act⟩
  · cases sent

/-- The first copy and the first attempt of a history. -/
def exchange (trace : History) : Option ((String × Request UpstreamBody) × (String × Request UpstreamBody)) :=
  (trace.findSome? copyOf).bind fun copy => (trace.findSome? sentOf).map fun out => (copy, out)

theorem exchange_events {trace : History} {mirror addr : String} {copy out : Request UpstreamBody}
    (found : exchange trace = some ((mirror, copy), (addr, out))) :
    ∃ mirrored ∈ trace, ∃ attempted ∈ trace, ∃ timeout timeout', mirrored.act = .spawnMirror timeout mirror copy ∧
      attempted.act = .sendRequest timeout' addr out := by
  obtain ⟨_, copied, rest⟩ := Option.bind_eq_some_iff.mp found
  obtain ⟨_, sent, same⟩ := Option.map_eq_some_iff.mp rest
  cases same
  obtain ⟨mirrored, first, isCopy⟩ := List.exists_of_findSome?_eq_some copied
  obtain ⟨attempted, second, isSent⟩ := List.exists_of_findSome?_eq_some sent
  obtain ⟨timeout, act⟩ := copyOf_act isCopy
  obtain ⟨timeout', act'⟩ := sentOf_act isSent
  exact ⟨mirrored, first, attempted, second, timeout, timeout', act, act'⟩

/-- Without overrides and without an identity the mirror gets a duplicate. -/
theorem mirror_duplicates_iff_unguarded :
    ∃ copy out, (exchange (guardedTrace Identity.mirroredRoute).1).map (fun e => (e.1.2, e.2.2)) = some (copy, out) ∧
      Duplicates copy out := by
  have addresses : (exchange (guardedTrace Identity.mirroredRoute).1).map (fun e => (e.1.1, e.2.1)) =
      some ("http://10.0.0.9:80", "http://10.0.0.1:80") := by decide +kernel
  have chosen : selected (Samples.get (Samples.field authorization credentials))
      (guardedTrace Identity.mirroredRoute).1 = some Identity.mirroredRoute := by decide +kernel
  obtain ⟨⟨⟨mirror, copy⟩, addr, out⟩, found, same⟩ := Option.map_eq_some_iff.mp addresses
  cases same
  obtain ⟨mirrored, first, attempted, second, timeout, timeout', copies, sends⟩ := exchange_events found
  obtain ⟨route, choice, duplicates, -⟩ := mirror_duplicates_iff Samples.build crates Samples.conn
    AbsoluteUris.cuts_parse _ _ _ (guardedTrace_runs Identity.mirroredRoute) mirrored attempted first second timeout
    timeout' _ _ copy out copies sends
  cases chosen.symm.trans choice
  have unchanged : Unchanged Samples.conn Identity.mirroredRoute (Samples.field authorization credentials) := by
    have unset : entries Identity.mirroredRoute = [] := rfl
    refine (unchanged_iff (by rw [DistinctNames, unset]; exact .nil) (by simp [unset])).mpr ⟨?_, fun _ => rfl, ?_⟩
    · simp [unset]
    · simp [unset]
  exact ⟨copy, out, by rw [found]; rfl, duplicates.mpr ⟨by decide +kernel, unchanged⟩⟩

/-- The credentials that the route removes do not reach the upstream, and they reach the mirror. -/
theorem removed_mirrored :
    ∃ copy out, (exchange (guardedTrace guardedRoute).1).map (fun e => (e.1.2, e.2.2)) = some (copy, out) ∧
      Runs (handle Samples.build crates Samples.conn (Samples.get (Samples.field authorization credentials)))
        (guardedTrace guardedRoute).1 (guardedTrace guardedRoute).2 ∧
      copy.parts.headers.getAll authorization = [credentials] ∧ out.parts.headers.getAll authorization = [] ∧
      ¬Duplicates copy out := by
  have held :
      (exchange (guardedTrace guardedRoute).1).map (fun e =>
        (e.1.2.parts.headers.getAll authorization, e.2.2.parts.headers.getAll authorization)) =
        some ([credentials], []) := by
    decide +kernel
  obtain ⟨⟨⟨mirror, copy⟩, addr, out⟩, found, same⟩ := Option.map_eq_some_iff.mp held
  obtain ⟨leaked, removed⟩ := Prod.mk.inj same
  refine ⟨copy, out, by rw [found]; rfl, guardedTrace_runs guardedRoute, leaked, removed, ?_⟩
  intro duplicates
  have values := duplicates.headers authorization (by decide)
  rw [leaked, removed] at values
  cases values

end Mirroring
end Torana
