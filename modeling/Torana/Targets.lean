import Torana.AbsoluteUris
import Torana.Addresses

/-!
Where a request goes and what it asks for there. The URI is put together as text, the host,
the port and the target of the request, and is cut again where a parser of URIs cuts it: a
target that begins with neither a path nor a query, as the asterisk of `OPTIONS`, is read as
a part of the authority, in which no port is found then.
-/
namespace Torana
open Http Proxy
open AbsoluteUris (Reads startsTarget authorityText targetText)
open Addresses (Port Suffix portValue addressText)
open Completeness (uriText uri_text)
open Uris (isHost)

namespace Targets

/-! ## The connector -/

/-- A connector goes to the number behind the last colon of the authority, and to the port 80
    when that is no number. -/
def ReadsPort (connectPort : Uri → Nat) : Prop :=
  ∀ uri authority, uri.authority = some authority → connectPort uri =
    ((Text.rsplitOnce ':' authority.toList).bind fun parts => (Text.parseUint 16 parts.2).toOption).getD 80

/-- What leaves for the request has the host, the port and the target that came in its URI, and
    the connector goes to that port. -/
def Directed (connectPort : Uri → Nat) (req out : Request UpstreamBody) (host : String) (port : Nat) : Prop :=
  out.parts.uri = ⟨some "http", some s!"{host}:{port}", some (req.parts.uri.pathAndQuery.getD "/")⟩ ∧
    connectPort out.parts.uri = port

/-- The request leaves, and does so for the host and the port with the target that came. -/
def Addressed (parseUri : UriParser) (connectPort : Uri → Nat) (req : Request UpstreamBody) (upstream : String)
    (clientAddr : Net.SocketAddr) (proto : ClientProto) (host : String) (port : Nat) : Prop :=
  ∃ out, prepareRequest parseUri req upstream clientAddr proto = .ok out ∧ Directed connectPort req out host port

theorem decimal_no_colon (port : Nat) : ':' ∉ Text.decimal port := by
  intro member
  exact absurd (List.all_eq_true.mp (Completeness.decimal_digits port) _ member) (by decide)

theorem connectPort_made {connectPort : Uri → Nat} (readsPort : ReadsPort connectPort) (host : String) {port : Nat}
    (small : port < 65536) {uri : Uri} (authority : uri.authority = some s!"{host}:{port}") : connectPort uri = port := by
  rw [readsPort uri _ authority, Completeness.authority_text, Addresses.rsplitOnce_made _ (decimal_no_colon port),
    Option.bind_some, Addresses.parsePort_decimal small]
  rfl

/-! ## The URI -/

theorem authority_plain {host : String} (legal : isHost host.toList = true) (port : Nat) :
    AbsoluteUris.Plain s!"{host}:{port}".toList :=
  AbsoluteUris.authority_plain (by rw [Completeness.authority_read legal port]; rfl)

/-- The URI of a request that leaves. -/
theorem prepared_uri {parseUri : UriParser} (cuts : AbsoluteUris.Cuts parseUri) {req out : Request UpstreamBody}
    {upstream host : String} {port : Nat} {clientAddr : Net.SocketAddr} {proto : ClientProto} {target : String}
    (prepared : prepareRequest parseUri req upstream clientAddr proto = .ok out)
    (asked : req.parts.uri.pathAndQuery.getD "/" = target) (split : upstreamHostPort upstream = .ok (host, port)) :
    out.parts.uri = ⟨some "http", some (String.ofList (authorityText (s!"{host}:{port}".toList ++ target.toList))),
      some (String.ofList (targetText (s!"{host}:{port}".toList ++ target.toList)))⟩ := by
  have parsed := prepareRequest_uri prepared asked split
  rw [uri_text] at parsed
  rw [cuts _ _ parsed, String.toList_append]

section
variable {parseUri : UriParser} {isTarget covered : String → Prop} {connectPort : Uri → Nat}

/-- The target that is asked for, which is `/` where the request names none. -/
theorem asked_target (reads : Reads parseUri isTarget covered) {req : Request UpstreamBody}
    (delivered : ∀ target, req.parts.uri.pathAndQuery = some target → isTarget target) :
    isTarget (req.parts.uri.pathAndQuery.getD "/") := by
  cases given : req.parts.uri.pathAndQuery with
  | none => exact reads.root
  | some target => exact delivered target given

/-- With a path or a query behind it the authority is read as it was written. -/
theorem directed_of_starts (reads : Reads parseUri isTarget covered) (readsPort : ReadsPort connectPort)
    {upstream host : String} {port : Nat} (split : upstreamHostPort upstream = .ok (host, port))
    (legal : isHost host.toList = true) {req out : Request UpstreamBody}
    (delivered : ∀ target, req.parts.uri.pathAndQuery = some target → isTarget target)
    (starts : startsTarget (req.parts.uri.pathAndQuery.getD "/").toList = true) {clientAddr : Net.SocketAddr}
    {proto : ClientProto} (prepared : prepareRequest parseUri req upstream clientAddr proto = .ok out) :
    Directed connectPort req out host port := by
  have listed := asked_target reads delivered
  generalize asked : req.parts.uri.pathAndQuery.getD "/" = target at listed starts
  have plain := authority_plain legal port
  have uri := prepared_uri reads.cuts prepared asked split
  rw [AbsoluteUris.authorityText_made plain starts,
    AbsoluteUris.targetText_made plain starts (reads.bounded target listed).2, String.ofList_toList,
    String.ofList_toList] at uri
  refine ⟨?_, ?_⟩
  · rw [uri, asked]
  · exact connectPort_made readsPort host (Addresses.upstreamHostPort_small split) (congrArg Uri.authority uri)

/-- A request with a covered URI leaves. -/
theorem covered_leaves (reads : Reads parseUri isTarget covered) {upstream host : String} {port : Nat}
    (split : upstreamHostPort upstream = .ok (host, port)) (legal : isHost host.toList = true)
    {req : Request UpstreamBody} (delivered : ∀ target, req.parts.uri.pathAndQuery = some target → isTarget target)
    (starts : startsTarget (req.parts.uri.pathAndQuery.getD "/").toList = true)
    (covers : covered (uriText host port (req.parts.uri.pathAndQuery.getD "/"))) (clientAddr : Net.SocketAddr)
    (proto : ClientProto) : ∃ out, prepareRequest parseUri req upstream clientAddr proto = .ok out := by
  have listed := asked_target reads delivered
  generalize asked : req.parts.uri.pathAndQuery.getD "/" = target at listed starts covers
  rw [uriText, uri_text, ← String.append_assoc] at covers
  obtain ⟨uri, parsed⟩ := reads.accepts s!"{host}:{port}" target (by rw [Completeness.authority_read legal port]; rfl)
    listed starts covers
  rw [String.append_assoc, ← uri_text] at parsed
  obtain ⟨value, fits⟩ := Completeness.authority_value legal port
  exact ⟨_, prepareRequest_made clientAddr proto asked split parsed fits⟩

end

/-- A request for a deliverable target goes where its address says, and asks for the target, exactly
    when the target begins with a path or a query. Where the parser does not cover its URI, it
    goes nowhere else then. -/
theorem addressed_iff (parseUri : UriParser) (isTarget covered : String → Prop) (connectPort : Uri → Nat)
    (reads : Reads parseUri isTarget covered) (readsPort : ReadsPort connectPort) (scheme : Bool) (host : List Char)
    (legal : isHost host = true) (port : Port) (suffix : Suffix) (req : Request UpstreamBody)
    (delivered : ∀ target, req.parts.uri.pathAndQuery = some target → isTarget target) (clientAddr : Net.SocketAddr)
    (proto : ClientProto) :
    (covered (uriText (String.ofList host) (portValue port.digits) (req.parts.uri.pathAndQuery.getD "/")) →
      (Addressed parseUri connectPort req (String.ofList (addressText scheme host (some port) suffix)) clientAddr proto
          (String.ofList host) (portValue port.digits) ↔
        startsTarget (req.parts.uri.pathAndQuery.getD "/").toList = true)) ∧
    (startsTarget (req.parts.uri.pathAndQuery.getD "/").toList = true → ∀ out,
      prepareRequest parseUri req (String.ofList (addressText scheme host (some port) suffix)) clientAddr proto =
          .ok out →
        Directed connectPort req out (String.ofList host) (portValue port.digits)) := by
  have split : upstreamHostPort (String.ofList (addressText scheme host (some port) suffix)) =
      .ok (String.ofList host, portValue port.digits) :=
    Addresses.upstreamHostPort_port legal (Addresses.hostPort_made scheme legal (some port) suffix)
  have named : isHost (String.ofList host).toList = true := by rwa [String.toList_ofList]
  have directed : startsTarget (req.parts.uri.pathAndQuery.getD "/").toList = true → ∀ out,
      prepareRequest parseUri req (String.ofList (addressText scheme host (some port) suffix)) clientAddr proto =
        .ok out → Directed connectPort req out (String.ofList host) (portValue port.digits) :=
    fun starts _ prepared => directed_of_starts reads readsPort split named delivered starts prepared
  refine ⟨fun covers => ⟨?_, fun starts => ?_⟩, directed⟩
  · rintro ⟨out, prepared, same, -⟩
    rw [prepared_uri reads.cuts prepared rfl split] at same
    have alone := congrArg String.toList (Option.some.inj (congrArg Uri.authority same))
    rw [String.toList_ofList] at alone
    obtain ⟨filled, whole⟩ := reads.bounded _ (asked_target reads delivered)
    exact (AbsoluteUris.authorityText_iff (authority_plain named _) filled whole).mp alone
  · obtain ⟨out, prepared⟩ := covered_leaves reads split named delivered starts covers clientAddr proto
    exact ⟨out, prepared, directed starts out prepared⟩

/-! ## The asterisk -/

/-- A connector that does so. -/
def connectPort (uri : Uri) : Nat :=
  (uri.authority.bind fun authority =>
    (Text.rsplitOnce ':' authority.toList).bind fun parts => (Text.parseUint 16 parts.2).toOption).getD 80

theorem readsPort_connectPort : ReadsPort connectPort := by
  intro uri authority named
  rw [connectPort, named, Option.bind_some]

/-- A request for this target, without fields. -/
def asking (method : Method) (target : String) : Request UpstreamBody :=
  ⟨⟨method, ⟨none, none, some target⟩, .http11, Multimap.empty⟩, .empty⟩

theorem addressed_iff_path :
    Addressed AbsoluteUris.parse connectPort (asking .get "/a?b=//c") "http://[::1]:8080" Samples.conn.clientAddr .http
      "[::1]" 8080 := by
  have delivered : ∀ target, (asking .get "/a?b=//c").parts.uri.pathAndQuery = some target →
      AbsoluteUris.IsTarget target := by
    rintro _ ⟨⟩
    refine ⟨?_, ?_⟩ <;> decide
  exact ((addressed_iff AbsoluteUris.parse AbsoluteUris.IsTarget (Uris.isCovered · = true) connectPort
    AbsoluteUris.reads_parse readsPort_connectPort true "[::1]".toList (by decide)
    ⟨"8080".toList, by decide, by decide, by decide⟩ ⟨[], .inl rfl⟩ _ delivered _ _).1 (by decide)).mpr (by decide)

/-- An `OPTIONS *` for the port 8080 leaves with the asterisk in its authority, for the port 80. -/
theorem asterisk_absorbed :
    ∃ out, prepareRequest AbsoluteUris.parse (asking .options "*") "http://10.0.0.1:8080" Samples.conn.clientAddr .http =
        .ok out ∧ out.parts.uri = ⟨some "http", some "10.0.0.1:8080*", some "/"⟩ ∧ connectPort out.parts.uri = 80 ∧
      ¬Addressed AbsoluteUris.parse connectPort (asking .options "*") "http://10.0.0.1:8080" Samples.conn.clientAddr .http
        "10.0.0.1" 8080 := by
  have leaves : (prepareRequest AbsoluteUris.parse (asking .options "*") "http://10.0.0.1:8080" Samples.conn.clientAddr
      .http).map (fun out => out.parts.uri) = .ok ⟨some "http", some "10.0.0.1:8080*", some "/"⟩ := by decide +kernel
  cases prepared : prepareRequest AbsoluteUris.parse (asking .options "*") "http://10.0.0.1:8080"
      Samples.conn.clientAddr .http with
  | error e =>
    rw [prepared] at leaves
    cases leaves
  | ok out =>
    rw [prepared] at leaves
    have uri : out.parts.uri = ⟨some "http", some "10.0.0.1:8080*", some "/"⟩ := Except.ok.inj leaves
    refine ⟨out, rfl, uri, ?_, ?_⟩
    · rw [uri]
      decide
    · rintro ⟨other, same, addressed, -⟩
      cases prepared.symm.trans same
      rw [uri] at addressed
      exact absurd addressed (by decide)

end Targets
end Torana
