import Torana.Health
import Torana.Routing

/-!
The forwarding core (`server.rs`): `ProxyEngine::handle` with its attempts and its
mirror copy, and the call of the pooled client in `proxy.rs`.

A guard of `config_handle` is held from `readConfig` to `dropConfig`. The spawned
mirror task shares nothing and its result is only logged, so it is one action.
-/
namespace Torana
open Http Proxy
open Config (RouteConfig Build Duration)
open Plugins (Plugin)

namespace Server

/-- Applied when a route does not set `timeout.total`. -/
def defaultTotalTimeout : Duration := 30000

/-! ## Connections -/

def isLowerHex (c : Char) : Bool := c.isDigit || ('a' ≤ c && c ≤ 'f')

/-- The hex digits of a verified client certificate's SHA-256 digest. -/
structure Fingerprint where
  text : String
  hex : text.toList.all isLowerHex = true
  deriving DecidableEq

theorem lowerHex_range {c : Char} (hex : isLowerHex c = true) : 48 ≤ c.toNat ∧ c.toNat ≤ 102 := by
  simp only [isLowerHex, Char.isDigit, Bool.or_eq_true, Bool.and_eq_true, decide_eq_true_eq] at hex
  rcases hex with ⟨low, high⟩ | ⟨low, high⟩
  · have low : 48 ≤ c.toNat := low
    have high : c.toNat ≤ 57 := high
    omega
  · have low : 97 ≤ c.toNat := low
    have high : c.toNat ≤ 102 := high
    omega

theorem lowerHex_visible {c : Char} (hex : isLowerHex c = true) : 32 ≤ c.toNat ∧ c.toNat < 127 := by
  have range := lowerHex_range hex
  omega

theorem fingerprint_visible (f : Fingerprint) : isVisibleText f.text = true := by
  refine List.all_eq_true.mpr fun c member => ?_
  obtain ⟨low, high⟩ := lowerHex_visible (List.all_eq_true.mp f.hex c member)
  simp [low, high]

/-- `HeaderValue::from_str` of the fingerprint, which is always a legal value. -/
def Fingerprint.value (f : Fingerprint) : HeaderValue :=
  (HeaderValue.fromStr f.text).get (by
    obtain ⟨v, parsed, _⟩ := fromStr_visible (fingerprint_visible f)
    simp [parsed])

/-- What `serve_connection` passes with every request of a connection: the
    fingerprint is there only after an mTLS handshake. -/
structure Conn where
  clientAddr : Net.SocketAddr
  clientProto : ClientProto
  clientCertFingerprint : Option Fingerprint

/-! ## Requests and answers of the proxy's own -/

def errorResponse (status : Nat) (message : String) : Response ProxyBody := ⟨status, Multimap.empty, .text message⟩

/-- `StatusCode::from_u16`. -/
def isStatusCode (status : Nat) : Bool := 100 ≤ status && status < 1000

/-- A fresh request from a request's head and a body. -/
def buildRequest (parts : Parts) (body : UpstreamBody) : Request UpstreamBody :=
  ⟨⟨parts.method, parts.uri, .http11, parts.headers⟩, body⟩

def overridden (headers : HeaderMap) (overrides : Option StringMap) : HeaderMap :=
  match overrides with
  | some overrides => applyHeaderOverrides headers overrides
  | none => headers

/-- Strip whatever a client sent as its identity and set the verified one. -/
def setIdentity (headers : HeaderMap) (fingerprint : Option Fingerprint) : HeaderMap :=
  let headers := headers.remove .xClientCertFingerprint
  match fingerprint with
  | some fingerprint => headers.insert .xClientCertFingerprint fingerprint.value
  | none => headers

/-- The request of one attempt as it is given to `proxy_request`. -/
def attemptRequest (conn : Conn) (route : RouteConfig) (parts : Parts) (body : UpstreamBody) :
    Request UpstreamBody :=
  let req := buildRequest parts body
  let headers := overridden req.parts.headers route.headers.request
  ⟨{ req.parts with headers := setIdentity headers conn.clientCertFingerprint }, req.body⟩

def hostHeader (parts : Parts) : Option String := (parts.headers.get .host).bind HeaderValue.toStr

/-- The route of a request: its host is read from the `Host` field alone. -/
def chooseRoute (config : Config) (parts : Parts) : Option RouteConfig :=
  Routing.selectRoute config.route (hostHeader parts) parts.uri.path

/-- A request that can be rebuilt: its method carries no meaningful body and the
    client sent none. -/
def bodyReplayable (req : Request Incoming) : Bool :=
  (req.parts.method = .get || req.parts.method = .head || req.parts.method = .options) &&
    req.body.exactSize = some 0

def canRetry (route : RouteConfig) (req : Request Incoming) : Bool :=
  1 < route.maxAttempts && bodyReplayable req

def effectiveAttempts (route : RouteConfig) (req : Request Incoming) : Nat :=
  if canRetry route req then route.maxAttempts else 1

def totalTimeout (route : RouteConfig) : Duration := route.totalDuration.getD defaultTotalTimeout

/-! ## Forwarding -/

section
variable (build : Build) (crates : Crates) (conn : Conn)

/-- `proxy_request` under the total timeout. An error that is not the pooled
    client's is not a failure to connect. -/
def proxyRequest (timeout : Duration) (req : Request UpstreamBody) (upstream : String) : Program Outcome :=
  match prepareRequest crates.parseUri req upstream conn.clientAddr conn.clientProto with
  | .error e => do
    call (.failUnsent upstream e)
    return .failed false
  | .ok req => do
    match ← call (.sendRequest timeout upstream req) with
    | .responded resp => return .responded { resp with headers := stripHopByHop resp.headers }
    | outcome => return outcome

/-- The spawned task that sends the mirror copy. -/
def mirrorRequest (timeout : Duration) (req : Request UpstreamBody) (addr : String) : Program Unit :=
  match prepareRequest crates.parseUri req addr conn.clientAddr conn.clientProto with
  | .error e => call (.mirrorFailed addr e)
  | .ok req => call (.spawnMirror timeout addr req)

def shouldMirror (rate : Nat) : Program Bool :=
  if 100 ≤ rate then return true
  else if rate = 0 then return false
  else do
    let nanos ← call .subsecNanos
    return nanos % 100 < rate

def mirrorCopy (route : RouteConfig) (req : Request Incoming) : Program Unit :=
  match route.mirror with
  | none => return ()
  | some mirror =>
    if bodyReplayable req then do
      if ← shouldMirror (mirror.rate.getD 100) then
        mirrorRequest crates conn (totalTimeout route) (buildRequest req.parts .empty) mirror.addr
    else return ()

/-- The upstream of one attempt, through `lb_cache`. -/
def pickUpstream (route : RouteConfig) (tried : List String) : Program (Option String) := do
  match ← call (.getBalancer route.name) with
  | none => return none
  | some lb => return (← lb.nextHealthy build.usizeBits tried).map (·.addr)

/-- The body of one attempt: a fresh empty one, or the client's, which can be taken once. -/
def takeBody (retry : Bool) (incoming : Option Incoming) : Program (UpstreamBody × Option Incoming) :=
  if retry then return (.empty, incoming)
  else match incoming with
    | some body => return (.streamed body, none)
    | none => do
      let never ← call (.expectFailed "non-retry path runs exactly one attempt")
      nomatch never

/-- The attempts that remain, after those on `tried` failed. -/
def attempts (route : RouteConfig) (parts : Parts) (retry : Bool) :
    (remaining : Nat) → Option Incoming → (tried : List String) → Program (Response ProxyBody)
  | 0, _, _ => return errorResponse 502 "Bad Gateway"
  | remaining + 1, incoming, tried => do
    match ← pickUpstream build route tried with
    | none => return errorResponse 502 "Bad Gateway: no upstreams available"
    | some addr =>
      let (body, incoming) ← takeBody retry incoming
      match ← proxyRequest crates conn (totalTimeout route) (attemptRequest conn route parts body) addr with
      | .responded resp => return ⟨resp.status, overridden resp.headers route.headers.response, .streamed resp.body⟩
      | .failed isConnect =>
        if !retry || !isConnect then return errorResponse 502 "Bad Gateway"
        else attempts route parts retry remaining incoming (tried ++ [addr])
      | .elapsed => return errorResponse 504 "Gateway Timeout"

/-- What `handle` does after the filter: the mirror copy, then the attempts. -/
def forward (route : RouteConfig) (req : Request Incoming) : Program (Response ProxyBody) := do
  mirrorCopy crates conn route req
  attempts build crates conn route req.parts (canRetry route req) (effectiveAttempts route req) (some req.body) []

/-- The filter of a route, read while the guard of the config is held. -/
def readPlugin (route : RouteConfig) : Program (Option Plugin) :=
  if build.plugins then
    match route.plugin with
    | some path => call (.getPlugin path)
    | none => return none
  else return none

/-- `handle` once it has selected the route. -/
def serveRoute (route : RouteConfig) (req : Request Incoming) : Program (Response ProxyBody) := do
  let plugin ← readPlugin build route
  call .dropConfig
  match plugin with
  | none => forward build crates conn route req
  | some plugin =>
    match ← call (.evaluate plugin req.parts.method.asStr req.parts.uri.path) with
    | .allow => forward build crates conn route req
    | .deny status => return errorResponse (if isStatusCode status then status else 403) "Denied by plugin"

/-- `ProxyEngine::handle`. -/
def handle (req : Request Incoming) : Program (Response ProxyBody) := do
  let config ← call .readConfig
  match chooseRoute config req.parts with
  | none => do
    call .dropConfig
    return errorResponse 404 "Not Found: no route matched"
  | some route => serveRoute build crates conn route req

/-- One request of a connection: the answer is sent back to the client. -/
def serve (req : Request Incoming) : Program Unit := do
  let resp ← handle build crates conn req
  call (.respond resp)

end

end Server
end Torana
