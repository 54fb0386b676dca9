import Torana.Identity

/-!
The headers that the proxy sets itself. The overrides of the route and the
verified identity are put into the head of an attempt before the fields that
`Connection` nominates are removed from it, so that a client that nominates one of
them takes it out again.
-/
namespace Torana
open Http Proxy
open Config (RouteConfig Build)
open Prog (Runs keeps_event)

namespace Overrides
open Server Handling Identity

/-! ## Applying overrides -/

/-- The request overrides of a route. -/
def entries (route : RouteConfig) : List (String × String) := route.headers.request.elim [] StringMap.entries

/-- The names of the overrides differ in more than case. -/
def DistinctNames (route : RouteConfig) : Prop :=
  (entries route).Pairwise fun a b => Text.toAsciiLowercase a.1.toList ≠ Text.toAsciiLowercase b.1.toList

/-- What one override leaves under its name. -/
def overriddenValues (value : String) (before : List HeaderValue) : List HeaderValue :=
  if value = "" then []
  else match HeaderValue.fromStr value with
    | some v => [v]
    | none => before

theorem getAll_override_self (headers : HeaderMap) {entry : String × String} {name : HeaderName}
    (named : HeaderName.fromBytes entry.1 = some name) :
    (applyHeaderOverride headers entry).getAll name = overriddenValues entry.2 (headers.getAll name) := by
  simp only [applyHeaderOverride, named, overriddenValues]
  split
  · simp
  · cases HeaderValue.fromStr entry.2 <;> simp

theorem getAll_override_ne (headers : HeaderMap) {entry : String × String} {name : HeaderName}
    (other : HeaderName.fromBytes entry.1 ≠ some name) :
    (applyHeaderOverride headers entry).getAll name = headers.getAll name := by
  unfold applyHeaderOverride
  split
  · rfl
  · rename_i n parsed
    have different : name ≠ n := fun same => other (by rw [parsed, same])
    split
    · simp [different]
    · split <;> simp [different]

theorem getAll_overrides_ne {name : HeaderName} (entries : List (String × String)) (headers : HeaderMap)
    (others : ∀ entry ∈ entries, HeaderName.fromBytes entry.1 ≠ some name) :
    (entries.foldl applyHeaderOverride headers).getAll name = headers.getAll name := by
  induction entries generalizing headers with
  | nil => rfl
  | cons entry rest ih =>
    rw [List.foldl_cons, ih _ fun e member => others e (List.mem_cons_of_mem _ member)]
    exact getAll_override_ne headers (others entry List.mem_cons_self)

/-- Among overrides with distinct names each decides its own field. -/
theorem getAll_overrides_mem {entries : List (String × String)}
    (distinct : entries.Pairwise fun a b => Text.toAsciiLowercase a.1.toList ≠ Text.toAsciiLowercase b.1.toList)
    {entry : String × String} (member : entry ∈ entries) {name : HeaderName}
    (named : HeaderName.fromBytes entry.1 = some name) (headers : HeaderMap) :
    (entries.foldl applyHeaderOverride headers).getAll name = overriddenValues entry.2 (headers.getAll name) := by
  have apart : ∀ other : String × String, Text.toAsciiLowercase other.1.toList ≠ Text.toAsciiLowercase entry.1.toList →
      HeaderName.fromBytes other.1 ≠ some name := fun other differ parsed => differ (fromBytes_inj parsed named)
  induction entries generalizing headers with
  | nil => cases member
  | cons first rest ih =>
    obtain ⟨firstApart, restDistinct⟩ := List.pairwise_cons.mp distinct
    rw [List.foldl_cons]
    rcases List.mem_cons.mp member with rfl | later
    · rw [getAll_overrides_ne rest _ fun other listed => apart other (Ne.symm (firstApart other listed))]
      exact getAll_override_self headers named
    · rw [ih restDistinct later, getAll_override_ne headers (apart first (firstApart entry later))]

/-! ## What leaves the proxy -/

/-- The names whose fields the proxy sets or removes whatever the overrides say. -/
def reserved (name : HeaderName) : Prop :=
  name ∈ hopByHopHeaders ∨ name ∈ forwardingHeaders ∨ name = .xClientCertFingerprint

/-- The head of an attempt after the overrides. -/
def overriddenHeaders (route : RouteConfig) (headers : HeaderMap) : HeaderMap :=
  overridden headers route.headers.request

theorem overriddenHeaders_eq (route : RouteConfig) (headers : HeaderMap) :
    overriddenHeaders route headers = (entries route).foldl applyHeaderOverride headers := by
  unfold overriddenHeaders overridden entries
  cases route.headers.request <;> rfl

theorem connectionOptions_congr {a b : HeaderMap} (same : a.getAll .connection = b.getAll .connection) :
    connectionOptions a = connectionOptions b := by
  unfold connectionOptions
  rw [same]

/-- What an attempt carries under a name that is not reserved. -/
theorem getAll_attempt {parseUri : UriParser} {conn : Conn} {route : RouteConfig} {parts : Parts}
    {body : UpstreamBody} {addr : String} {out : Request UpstreamBody}
    (prepared : prepareRequest parseUri (attemptRequest conn route parts body) addr conn.clientAddr
      conn.clientProto = .ok out) {name : HeaderName} (free : name ∉ forwardingHeaders) :
    out.parts.headers.getAll name =
      if name ∈ hopByHopHeaders ∨ name ∈ connectionOptions (overriddenHeaders route parts.headers) then []
      else (setIdentity (overriddenHeaders route parts.headers) conn.clientCertFingerprint).getAll name := by
  have options : connectionOptions (setIdentity (overriddenHeaders route parts.headers) conn.clientCertFingerprint) =
      connectionOptions (overriddenHeaders route parts.headers) :=
    connectionOptions_congr (getAll_setIdentity_ne _ _ (by decide))
  rw [getAll_prepareRequest prepared free, ← options]
  rfl

/-- What the proxy sets is there: each override with a value that is not of a reserved
    name, with that value alone, each such override without a value as an absence, and
    the verified identity. -/
structure Kept (conn : Conn) (route : RouteConfig) (headers : HeaderMap) : Prop where
  set : ∀ entry ∈ entries route, entry.2 ≠ "" → (∀ name, HeaderName.fromBytes entry.1 = some name → ¬ reserved name) →
    ∃ name value, HeaderName.fromBytes entry.1 = some name ∧ HeaderValue.fromStr entry.2 = some value ∧
      headers.getAll name = [value]
  removed : ∀ entry ∈ entries route, entry.2 = "" → ∀ name, HeaderName.fromBytes entry.1 = some name →
    ¬ reserved name → headers.getAll name = []
  identity : ∀ fingerprint, conn.clientCertFingerprint = some fingerprint →
    headers.getAll .xClientCertFingerprint = [fingerprint.value]

/-- The overrides with a value are legal fields, and neither they nor the identity are
    nominated by what `Connection` holds once the overrides were applied. -/
structure Unnominated (conn : Conn) (route : RouteConfig) (headers : HeaderMap) : Prop where
  set : ∀ entry ∈ entries route, entry.2 ≠ "" → (∀ name, HeaderName.fromBytes entry.1 = some name → ¬ reserved name) →
    ∃ name value, HeaderName.fromBytes entry.1 = some name ∧ HeaderValue.fromStr entry.2 = some value ∧
      name ∉ connectionOptions (overriddenHeaders route headers)
  identity : conn.clientCertFingerprint ≠ none →
    HeaderName.xClientCertFingerprint ∉ connectionOptions (overriddenHeaders route headers)

section
variable {parseUri : UriParser} {conn : Conn} {route : RouteConfig} {parts : Parts} {body : UpstreamBody}
  {addr : String} {out : Request UpstreamBody}

theorem attempt_removed (distinct : DistinctNames route)
    (prepared : prepareRequest parseUri (attemptRequest conn route parts body) addr conn.clientAddr
      conn.clientProto = .ok out) {entry : String × String} (member : entry ∈ entries route) (empty : entry.2 = "")
    {name : HeaderName} (named : HeaderName.fromBytes entry.1 = some name) (free : ¬ reserved name) :
    out.parts.headers.getAll name = [] := by
  simp only [reserved, not_or] at free
  rw [getAll_attempt prepared free.2.1, getAll_setIdentity_ne _ _ free.2.2, overriddenHeaders_eq]
  split
  · rfl
  · rw [getAll_overrides_mem distinct member named, overriddenValues, if_pos empty]

theorem attempt_kept_iff (distinct : DistinctNames route)
    (prepared : prepareRequest parseUri (attemptRequest conn route parts body) addr conn.clientAddr
      conn.clientProto = .ok out) :
    Kept conn route out.parts.headers ↔ Unnominated conn route parts.headers := by
  have identityName : HeaderName.xClientCertFingerprint ∉ hopByHopHeaders := by decide
  have identityValues : out.parts.headers.getAll .xClientCertFingerprint = _ := getAll_attempt prepared (by decide)
  simp only [identityName, false_or, getAll_setIdentity_self] at identityValues
  constructor
  · intro kept
    refine ⟨fun entry member filled free => ?_, fun verified nominated => ?_⟩
    · obtain ⟨name, value, named, legal, held⟩ := kept.set entry member filled free
      refine ⟨name, value, named, legal, fun nominated => ?_⟩
      have forwarded : name ∉ forwardingHeaders := fun listed => free name named (.inr (.inl listed))
      rw [getAll_attempt prepared forwarded, if_pos (.inr nominated)] at held
      cases held
    · obtain ⟨fingerprint, verified⟩ := Option.ne_none_iff_exists'.mp verified
      have held := kept.identity fingerprint verified
      rw [identityValues, if_pos nominated] at held
      cases held
  · intro unnominated
    refine ⟨fun entry member filled free => ?_, fun entry member empty name named free =>
      attempt_removed distinct prepared member empty named free, fun fingerprint verified => ?_⟩
    · obtain ⟨name, value, named, legal, kept⟩ := unnominated.set entry member filled free
      have free := free name named
      simp only [reserved, not_or] at free
      refine ⟨name, value, named, legal, ?_⟩
      rw [getAll_attempt prepared free.2.1, if_neg (not_or.mpr ⟨free.1, kept⟩), getAll_setIdentity_ne _ _ free.2.2,
        overriddenHeaders_eq, getAll_overrides_mem distinct member named, overriddenValues, if_neg filled, legal]
    · have kept := unnominated.identity (by rw [verified]; simp)
      rw [identityValues, if_neg kept, verified]
      rfl

end

/-- The attempt that an event sends. -/
def attemptOf (e : Event Act.Res) : Option (Request UpstreamBody) :=
  match e.act with
  | .sendRequest _ _ out => some out
  | _ => none

/-- The event is an attempt of a request that selected the route, with this outcome. -/
structure Attempts (build : Build) (crates : Crates) (conn : Conn) (route : RouteConfig) (req : Request Incoming)
    (out : Request UpstreamBody) where
  before : History
  event : Event Act.Res
  after : History
  rest : Program (Response ProxyBody)
  run : Runs (handle build crates conn req) (before ++ event :: after) rest
  sent : attemptOf event = some out
  choice : selected req before = some route

theorem attempts_prepared {build : Build} {crates : Crates} {conn : Conn} {route : RouteConfig}
    {req : Request Incoming} {out : Request UpstreamBody} (attempt : Attempts build crates conn route req out) :
    ∃ body addr, prepareRequest crates.parseUri (attemptRequest conn route req.parts body) addr conn.clientAddr
      conn.clientProto = .ok out := by
  have may := keeps_event handle_keeps attempt.run
  have sent := attempt.sent
  unfold attemptOf at sent
  split at sent
  · rename_i timeout addr out' act
    cases sent
    rw [act] at may
    obtain ⟨served, body, serving, _, prepared⟩ := may
    cases attempt.choice.symm.trans serving.1
    exact ⟨body, addr, prepared⟩
  · cases sent

/-- An attempt that is found among what `handle` does against fixed answers. -/
theorem attempts_shown {build : Build} {crates : Crates} {conn : Conn} {route : RouteConfig} {req : Request Incoming}
    {answer : (a : Act) → Option a.Res} {holds : Request UpstreamBody → Bool}
    (shown : Pool.somewhere (fun before e => selected req before = some route && (attemptOf e).any holds) []
      (Prog.follow answer (handle build crates conn req)).1 = true) :
    ∃ out, Nonempty (Attempts build crates conn route req out) ∧ holds out = true := by
  obtain ⟨before, e, after, split, found⟩ := Pool.somewhere_split shown
  simp only [List.nil_append, Bool.and_eq_true, decide_eq_true_eq] at found
  obtain ⟨choice, sent⟩ := found
  obtain ⟨out, emitted, held⟩ := (Option.any_eq_true _ _).mp sent
  have run := Prog.runs_follow answer (handle build crates conn req)
  exact ⟨out, ⟨before, e, after, _, split ▸ run, emitted, choice⟩, held⟩

/-- The two requests carry the same under every name that the proxy sets itself. -/
def SameOwn (conn : Conn) (route : RouteConfig) (a b : HeaderMap) : Prop :=
  (∀ entry ∈ entries route, ∀ name, HeaderName.fromBytes entry.1 = some name → ¬ reserved name →
    a.getAll name = b.getAll name) ∧
  (conn.clientCertFingerprint ≠ none → a.getAll .xClientCertFingerprint = b.getAll .xClientCertFingerprint)

theorem kept_same {conn : Conn} {route : RouteConfig} {a b : HeaderMap} (left : Kept conn route a)
    (right : Kept conn route b) : SameOwn conn route a b := by
  refine ⟨fun entry member name named free => ?_, fun verified => ?_⟩
  · have all : ∀ n, HeaderName.fromBytes entry.1 = some n → ¬ reserved n := by
      intro n parsed
      cases named.symm.trans parsed
      exact free
    by_cases empty : entry.2 = ""
    · rw [left.removed entry member empty name named free, right.removed entry member empty name named free]
    · obtain ⟨n, value, parsed, legal, held⟩ := left.set entry member empty all
      obtain ⟨n', value', parsed', legal', held'⟩ := right.set entry member empty all
      cases named.symm.trans parsed
      cases named.symm.trans parsed'
      cases legal.symm.trans legal'
      rw [held, held']
  · obtain ⟨fingerprint, verified⟩ := Option.ne_none_iff_exists'.mp verified
    rw [left.identity fingerprint verified, right.identity fingerprint verified]

/-- An attempt carries what the proxy sets exactly when the overrides are legal and
    `Connection` nominates none of it; two such attempts carry the same. -/
theorem attempt_keeps_own (build : Build) (crates : Crates) (conn : Conn) (route : RouteConfig)
    (distinct : DistinctNames route) (req : Request Incoming) (out : Request UpstreamBody)
    (attempt : Attempts build crates conn route req out) :
    (Kept conn route out.parts.headers ↔ Unnominated conn route req.parts.headers) ∧
      ∀ req' out', Attempts build crates conn route req' out' → Unnominated conn route req.parts.headers →
        Unnominated conn route req'.parts.headers → SameOwn conn route out.parts.headers out'.parts.headers := by
  obtain ⟨body, addr, prepared⟩ := attempts_prepared attempt
  have kept := attempt_kept_iff distinct prepared
  refine ⟨kept, fun req' out' attempt' here there => ?_⟩
  obtain ⟨body', addr', prepared'⟩ := attempts_prepared attempt'
  exact kept_same (kept.mpr here) ((attempt_kept_iff distinct prepared').mpr there)

/-! ## A client that nominates a field of its own -/

def apiKey : HeaderName := ⟨"x-api-key", by decide⟩
def debug : HeaderName := ⟨"x-debug", by decide⟩

def secret : HeaderValue := ⟨Text.asBytes "secret".toList, by decide⟩

/-- A route that gives its upstream a key and takes a field of the client away. -/
def dressedRoute : RouteConfig :=
  { Samples.route "api" "http://10.0.0.1:80" with
    headers := ⟨some ⟨[("x-api-key", "secret"), ("x-debug", "")], by simp⟩, none⟩ }

theorem dressed_distinct : DistinctNames dressedRoute := by
  refine List.pairwise_pair.mpr ?_
  decide

def certificate : Fingerprint := ⟨"0a1b", by decide⟩

def certified : Conn := { Samples.conn with clientCertFingerprint := some certificate }

/-- `GET /` with `Connection: x-trace`, the field that it nominates, one that the route takes
    away and an identity of the client's own. -/
def tracing : Request Incoming :=
  Samples.get ((((Samples.field .connection ⟨Text.asBytes "x-trace".toList, by decide⟩).insert
    ⟨"x-trace", by decide⟩ secret).insert debug secret).insert .xClientCertFingerprint forged)

theorem tracing_unnominated : Unnominated certified dressedRoute tracing.parts.headers := by
  refine ⟨fun entry member nonempty _ => ?_, fun _ => by decide +kernel⟩
  obtain rfl : entry = ("x-api-key", "secret") := by
    rcases List.mem_cons.mp member with same | rest
    · exact same
    · rw [List.mem_singleton.mp rest] at nonempty
      exact absurd rfl nonempty
  exact ⟨apiKey, secret, by decide +kernel, by decide +kernel, by decide +kernel⟩

/-- The key is set, the field is gone, and the identity is the one that was verified. -/
def dressed (out : Request UpstreamBody) : Bool :=
  out.parts.headers.getAll apiKey = [secret] && out.parts.headers.getAll debug = [] &&
    out.parts.headers.getAll .xClientCertFingerprint = [certificate.value]

def dressedTrace : History × Program (Response ProxyBody) :=
  Prog.follow (Samples.answers Samples.unreloaded (Samples.store (Samples.config [dressedRoute]) Table.empty))
    (handle Samples.build Samples.unreloaded certified tracing)

theorem attempt_keeps_own_dressed :
    ∃ out : Request UpstreamBody, dressed out = true ∧ Kept certified dressedRoute out.parts.headers := by
  have shown : Pool.somewhere (fun before e => selected tracing before = some dressedRoute && (attemptOf e).any dressed)
      [] dressedTrace.1 = true := by decide +kernel
  obtain ⟨out, ⟨attempt⟩, held⟩ := attempts_shown shown
  have kept := (attempt_keeps_own Samples.build Samples.unreloaded certified dressedRoute dressed_distinct tracing out
    attempt).1
  exact ⟨out, held, kept.mpr tracing_unnominated⟩

/-! ## A nominated override -/

/-- A route that gives its upstream a key. -/
def keyedRoute : RouteConfig :=
  { Samples.route "api" "http://10.0.0.1:80" with headers := ⟨some ⟨[("x-api-key", "secret")], by simp⟩, none⟩ }

def keyedStore : Store := Samples.store (Samples.config [keyedRoute]) Table.empty

/-- `GET /` with the field that nominates the key. -/
def nominating : Request Incoming :=
  Samples.get (Samples.field .connection ⟨Text.asBytes "x-api-key".toList, by decide⟩)

/-- What `handle` performs for the request, with upstreams that answer. -/
def keyedTrace (req : Request Incoming) : History × Program (Response ProxyBody) :=
  Prog.follow (Samples.answers Samples.unreloaded keyedStore)
    (handle Samples.build Samples.unreloaded Samples.conn req)

/-- The event is an attempt for the keyed route that carries these keys. -/
def carries (req : Request Incoming) (keys : List HeaderValue) (before : History) (e : Event Act.Res) : Bool :=
  selected req before = some keyedRoute && (attemptOf e).any fun out => out.parts.headers.getAll apiKey = keys

theorem attempt_carries (req : Request Incoming) (keys : List HeaderValue)
    (shown : Pool.somewhere (carries req keys) [] (keyedTrace req).1 = true) :
    ∃ out, Nonempty (Attempts Samples.build Samples.unreloaded Samples.conn keyedRoute req out) ∧
      out.parts.headers.getAll apiKey = keys := by
  obtain ⟨out, attempt, held⟩ := attempts_shown shown
  exact ⟨out, attempt, of_decide_eq_true held⟩

theorem keyed_distinct : DistinctNames keyedRoute := List.pairwise_singleton _ _

/-- A client that nominates the key takes it out of the request. -/
theorem nominated_key_lost :
    ∃ out, Nonempty (Attempts Samples.build Samples.unreloaded Samples.conn keyedRoute nominating out) ∧
      DistinctNames keyedRoute ∧ ¬ Kept Samples.conn keyedRoute out.parts.headers := by
  obtain ⟨out, attempt, lost⟩ := attempt_carries nominating [] (by decide +kernel)
  refine ⟨out, attempt, keyed_distinct, fun kept => ?_⟩
  have named : HeaderName.fromBytes "x-api-key" = some apiKey := by decide +kernel
  obtain ⟨name, value, parsed, _, held⟩ := kept.set ("x-api-key", "secret") List.mem_cons_self (by simp) (by
    intro name parsed
    cases named.symm.trans parsed
    simp only [reserved, not_or]
    decide)
  cases named.symm.trans parsed
  rw [lost] at held
  cases held

end Overrides
end Torana
