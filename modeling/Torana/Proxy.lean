import Torana.Http
import Torana.Net

/-!
What `proxy.rs` does to a request before it is sent and to a response after it
came back: the hop-by-hop fields, the configured overrides, the forwarding
fields, and the split of an upstream address.

Parsing a URI belongs to the `http` crate and is a parameter.
-/
namespace Torana.Proxy
open Http

/-- `str::parse::<hyper::Uri>` with the text of its error. -/
abbrev UriParser := String → Except String Uri

/-- The headers that a proxy must not forward. -/
def hopByHopHeaders : List HeaderName :=
  [.connection, .keepAlive, .proxyAuthenticate, .proxyAuthorization, .te, .trailer, .transferEncoding, .upgrade]

/-- A `HashMap<String, String>` as its entries in the order in which it iterates. -/
structure StringMap where
  entries : List (String × String)
  distinct : (entries.map Prod.fst).Nodup
  deriving DecidableEq

/-- The text of a scheme, which `HeaderValue::from_static` accepts. -/
structure ClientProto where
  text : String
  visible : isVisibleText text = true
  deriving DecidableEq

namespace ClientProto
def http : ClientProto := ⟨"http", by decide⟩
def https : ClientProto := ⟨"https", by decide⟩
/-- `HeaderValue::from_static(proto)`. -/
def value (proto : ClientProto) : HeaderValue :=
  (HeaderValue.fromStr proto.text).get (by
    obtain ⟨v, parsed, _⟩ := fromStr_visible proto.visible
    simp [parsed])
end ClientProto

/-! ## Hop-by-hop fields -/

/-- The names that the lines of `Connection` list; a line with opaque bytes and an
    element that is no field name count for nothing. -/
def connectionOptions (headers : HeaderMap) : List HeaderName :=
  ((headers.getAll .connection).filterMap HeaderValue.toStr).flatMap fun line =>
    (line.toList.splitOn ',').filterMap fun name => HeaderName.fromBytes (String.ofList (Text.trim name))

def stripHopByHop (headers : HeaderMap) : HeaderMap :=
  (headers.removeAll (connectionOptions headers)).removeAll hopByHopHeaders

theorem getAll_strip (headers : HeaderMap) (name : HeaderName) :
    (stripHopByHop headers).getAll name =
      if name ∈ hopByHopHeaders ∨ name ∈ connectionOptions headers then [] else headers.getAll name := by
  simp only [stripHopByHop, Multimap.getAll_removeAll]
  by_cases listed : name ∈ hopByHopHeaders
  · simp [listed]
  · simp [listed]

/-! ## Overrides -/

/-- One entry of `apply_header_overrides`: an empty value removes the field, and a
    name or a value that is not legal is skipped. -/
def applyHeaderOverride (headers : HeaderMap) (entry : String × String) : HeaderMap :=
  match HeaderName.fromBytes entry.1 with
  | none => headers
  | some name =>
    if entry.2 = "" then headers.remove name
    else match HeaderValue.fromStr entry.2 with
      | some value => headers.insert name value
      | none => headers

def applyHeaderOverrides (headers : HeaderMap) (overrides : StringMap) : HeaderMap :=
  overrides.entries.foldl applyHeaderOverride headers

/-! ## Forwarding fields -/

def appendForwardedHeaders (headers : HeaderMap) (clientAddr : Net.SocketAddr) (proto : ClientProto) : HeaderMap :=
  let clientIp := clientAddr.ip.toText
  let xff := match (headers.get .xForwardedFor).bind HeaderValue.toStr with
    | some existing => existing ++ ", " ++ clientIp
    | none => clientIp
  let headers := match HeaderValue.fromStr xff with
    | some value => headers.insert .xForwardedFor value
    | none => headers
  headers.insert .xForwardedProto proto.value

/-! ## Upstream addresses -/

/-- Split an upstream address like `http://host:port` into host and port. -/
def upstreamHostPort (upstream : String) : Except String (String × Nat) := do
  let rest := Text.splitNext '/' ((Text.stripPrefix "http://".toList upstream.toList).getD upstream.toList)
  let (host, port) ← match Text.rsplitOnce ':' rest with
    | some (host, port) => match Text.parseUint 16 port with
      | .ok port => Except.ok (host, port)
      | .error e => .error e.message
    | none => .ok (rest, 80)
  if host = [] then .error s!"Could not extract host from '{upstream}'"
  else .ok (String.ofList host, port)

/-- The text of `InvalidHeaderName`. -/
def invalidHeaderName : String := "invalid HTTP header name"
/-- The text of `InvalidHeaderValue`. -/
def invalidHeaderValue : String := "failed to parse header value"

/-- `proxy_request` up to the call of the pooled client: the request that leaves,
    addressed to the upstream, or the error that ends the attempt before anything
    is sent. -/
def prepareRequest (parseUri : UriParser) (req : Request UpstreamBody) (upstream : String)
    (clientAddr : Net.SocketAddr) (proto : ClientProto) : Except String (Request UpstreamBody) := do
  let pathAndQuery := req.parts.uri.pathAndQuery.getD "/"
  let (host, port) ← upstreamHostPort upstream
  -- The pooled client routes by the authority of the absolute URI.
  let uri ← parseUri s!"http://{host}:{port}{pathAndQuery}"
  let headers := stripHopByHop req.parts.headers
  match HeaderValue.fromStr s!"{host}:{port}" with
  | none => .error invalidHeaderValue
  | some value =>
    let headers := appendForwardedHeaders (headers.insert .host value) clientAddr proto
    .ok ⟨{ req.parts with uri, headers }, req.body⟩

/-- A sequence succeeds when both parts do. -/
theorem bind_ok {α β : Type} {x : Except String α} {f : α → Except String β} {y : β} :
    (x >>= f) = .ok y ↔ ∃ value, x = .ok value ∧ f value = .ok y := by
  cases x with
  | error e => simp [bind, Except.bind]
  | ok value => simp [bind, Except.bind]

/-- Everything that `prepareRequest` does when it sends the request. -/
theorem prepareRequest_steps {parseUri : UriParser} {req out : Request UpstreamBody} {upstream : String}
    {clientAddr : Net.SocketAddr} {proto : ClientProto}
    (prepared : prepareRequest parseUri req upstream clientAddr proto = .ok out) :
    ∃ host port uri value, upstreamHostPort upstream = .ok (host, port) ∧
      (∀ pathAndQuery, req.parts.uri.pathAndQuery.getD "/" = pathAndQuery →
        parseUri s!"http://{host}:{port}{pathAndQuery}" = .ok uri) ∧
      HeaderValue.fromStr s!"{host}:{port}" = some value ∧
      out = ⟨{ req.parts with
        uri, headers := appendForwardedHeaders ((stripHopByHop req.parts.headers).insert .host value) clientAddr proto },
        req.body⟩ := by
  simp only [prepareRequest, bind_ok] at prepared
  obtain ⟨⟨host, port⟩, split, uri, parsed, made⟩ := prepared
  cases fits : HeaderValue.fromStr s!"{host}:{port}" with
  | none =>
    rw [fits] at made
    cases made
  | some value =>
    rw [fits] at made
    cases made
    refine ⟨host, port, uri, value, split, ?_, fits, rfl⟩
    rintro _ rfl
    exact parsed

theorem prepareRequest_ok {parseUri : UriParser} {req out : Request UpstreamBody} {upstream : String}
    {clientAddr : Net.SocketAddr} {proto : ClientProto}
    (prepared : prepareRequest parseUri req upstream clientAddr proto = .ok out) :
    ∃ host port uri value, upstreamHostPort upstream = .ok (host, port) ∧
      HeaderValue.fromStr s!"{host}:{port}" = some value ∧
      out = ⟨{ req.parts with
        uri, headers := appendForwardedHeaders ((stripHopByHop req.parts.headers).insert .host value) clientAddr proto },
        req.body⟩ := by
  obtain ⟨host, port, uri, value, split, -, fits, same⟩ := prepareRequest_steps prepared
  exact ⟨host, port, uri, value, split, fits, same⟩

/-- The URI that leaves is what the host, the port and the target of the request parse to. -/
theorem prepareRequest_uri {parseUri : UriParser} {req out : Request UpstreamBody} {upstream host : String} {port : Nat}
    {clientAddr : Net.SocketAddr} {proto : ClientProto} {pathAndQuery : String}
    (prepared : prepareRequest parseUri req upstream clientAddr proto = .ok out)
    (target : req.parts.uri.pathAndQuery.getD "/" = pathAndQuery) (split : upstreamHostPort upstream = .ok (host, port)) :
    parseUri s!"http://{host}:{port}{pathAndQuery}" = .ok out.parts.uri := by
  obtain ⟨_, _, uri, _, same, parsed, -, rfl⟩ := prepareRequest_steps prepared
  cases split.symm.trans same
  exact parsed pathAndQuery target

/-- A request leaves once its address splits and the URI and the `Host` value parse. -/
theorem prepareRequest_made {parseUri : UriParser} {req : Request UpstreamBody} {upstream host : String} {port : Nat}
    {pathAndQuery : String} {uri : Uri} {value : HeaderValue} (clientAddr : Net.SocketAddr) (proto : ClientProto)
    (target : req.parts.uri.pathAndQuery.getD "/" = pathAndQuery) (split : upstreamHostPort upstream = .ok (host, port))
    (parsed : parseUri s!"http://{host}:{port}{pathAndQuery}" = .ok uri)
    (legal : HeaderValue.fromStr s!"{host}:{port}" = some value) :
    prepareRequest parseUri req upstream clientAddr proto = .ok ⟨{ req.parts with
      uri, headers := appendForwardedHeaders ((stripHopByHop req.parts.headers).insert .host value) clientAddr proto },
      req.body⟩ := by
  unfold prepareRequest
  rw [target, split]
  simp only [bind, Except.bind, parsed, legal]

/-- The fields that are set after the hop-by-hop fields were removed. -/
def forwardingHeaders : List HeaderName := [.host, .xForwardedFor, .xForwardedProto]

theorem getAll_appendForwarded (headers : HeaderMap) (clientAddr : Net.SocketAddr) (proto : ClientProto)
    {name : HeaderName} (other : name ∉ forwardingHeaders) :
    (appendForwardedHeaders headers clientAddr proto).getAll name = headers.getAll name := by
  simp only [forwardingHeaders, List.mem_cons, List.not_mem_nil, or_false, not_or] at other
  unfold appendForwardedHeaders
  simp only [Multimap.getAll_insert, other.2.2, if_false]
  split <;> simp [other.2.1]

/-- What leaves under any other name is what was there before, unless it is hop-by-hop. -/
theorem getAll_prepareRequest {parseUri : UriParser} {req out : Request UpstreamBody} {upstream : String}
    {clientAddr : Net.SocketAddr} {proto : ClientProto}
    (prepared : prepareRequest parseUri req upstream clientAddr proto = .ok out) {name : HeaderName}
    (other : name ∉ forwardingHeaders) :
    out.parts.headers.getAll name =
      if name ∈ hopByHopHeaders ∨ name ∈ connectionOptions req.parts.headers then []
      else req.parts.headers.getAll name := by
  obtain ⟨host, port, uri, value, _, _, rfl⟩ := prepareRequest_ok prepared
  have notHost : name ≠ .host := fun same => other (by simp [forwardingHeaders, same])
  rw [getAll_appendForwarded _ _ _ other, Multimap.getAll_insert, if_neg notHost, getAll_strip]

end Torana.Proxy
