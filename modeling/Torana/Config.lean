import Torana.Proxy

/-!
The configuration: its data as `config.rs` deserialises it, the defaults, the
durations and `Config::validate` with the text of every error.

Reading TOML and parsing a URI belong to other crates and are parameters. Only
the fields that some modelled function reads are kept.
-/
namespace Torana.Config
open Http Proxy

/-- The largest accepted `route.upstream[].weight`. -/
def maxUpstreamWeight : Nat := 10000

/-- What the build fixes: the cargo features and the width of a pointer. -/
structure Build where
  plugins : Bool
  acme : Bool
  usizeBits : Nat
  deriving DecidableEq

/-! ## Data -/

structure AutoTlsConfig where
  domains : List String
  directoryUrl : Option String
  deriving DecidableEq

structure ListenerConfig where
  addr : String
  protocol : String
  tlsCert : Option String
  tlsKey : Option String
  tlsClientCa : Option String
  acme : Option AutoTlsConfig
  deriving DecidableEq

structure UpstreamConfig where
  addr : String
  weight : Option Nat
  deriving DecidableEq

structure MirrorConfig where
  addr : String
  rate : Option Nat
  deriving DecidableEq

structure HeaderConfig where
  request : Option StringMap
  response : Option StringMap
  deriving DecidableEq

structure HealthCheckConfig where
  path : Option String
  interval : Option String
  timeout : Option String
  deriving DecidableEq

structure RouteConfig where
  name : String
  host : Option String
  path : Option String
  upstream : List UpstreamConfig
  mirror : Option MirrorConfig
  timeoutTotal : Option String
  headers : HeaderConfig
  healthCheck : Option HealthCheckConfig
  retries : Option Nat
  plugin : Option String
  deriving DecidableEq

end Config

structure Config where
  listener : List Config.ListenerConfig
  route : List Config.RouteConfig
  deriving DecidableEq

namespace Config
open Http Proxy

/-! ## Loading -/

/-- `load_config` of the text that was read. -/
def loaded {α : Type} (parseToml : String → Except String α) (path : String) : Except String String → Except String α
  | .error e => .error s!"Failed to read config file {path}: {e}"
  | .ok content => parseToml content

theorem loaded_ok {α : Type} {parseToml : String → Except String α} {path : String} {text : Except String String}
    {config : α} :
    loaded parseToml path text = .ok config ↔ ∃ content, text = .ok content ∧ parseToml content = .ok config := by
  cases text <;> simp [loaded]

/-! ## Durations and defaults -/

/-- A duration in milliseconds. -/
abbrev Duration := Nat

/-- Parse durations like `200ms`, `30s`, `5m`. The product of the minutes wraps as
    it does in a release build. -/
def parseDuration (text : String) : Except String Duration :=
  let s := Text.trim text.toList
  let shown := String.ofList s
  let num := s.takeWhile Char.isDigit
  let unit := s.dropWhile Char.isDigit
  if unit = [] then .error s!"Duration '{shown}' is missing a unit (ms, s, m)"
  else match Text.parseUint 64 num with
    | .error _ => .error s!"Invalid duration value '{shown}'"
    | .ok value =>
      if unit = "ms".toList then .ok value
      else if unit = "s".toList then .ok (value * 1000)
      else if unit = "m".toList then .ok (value * 60 % 2 ^ 64 * 1000)
      else
        let shownUnit := String.ofList unit
        .error s!"Unknown duration unit '{shownUnit}' in '{shown}'"

namespace HealthCheckConfig
/-- The probed path. -/
def probePath (hc : HealthCheckConfig) : String := hc.path.getD "/"
def intervalDuration (hc : HealthCheckConfig) : Except String Duration :=
  hc.interval.elim (.ok 10000) parseDuration
def timeoutDuration (hc : HealthCheckConfig) : Except String Duration :=
  hc.timeout.elim (.ok 2000) parseDuration
end HealthCheckConfig

namespace RouteConfig
/-- The total timeout, if one is set and valid. -/
def totalDuration (route : RouteConfig) : Option Duration :=
  route.timeoutTotal.bind fun s => (parseDuration s).toOption

/-- Max total attempts across upstreams for this route. -/
def maxAttempts (route : RouteConfig) : Nat :=
  match route.retries with
  | some n => max n 1
  | none => if 1 < route.upstream.length then 2 else 1
end RouteConfig

theorem maxAttempts_pos (route : RouteConfig) : 1 ≤ route.maxAttempts := by
  unfold RouteConfig.maxAttempts
  split
  · omega
  · split <;> omega

/-! ## Validation -/

/-- `if … { bail!(…) }`. -/
def bailIf (failed : Bool) (message : String) : Except String Unit :=
  if failed then .error message else .ok ()

/-- `map_err` with a text in front of the error. -/
def context {α : Type} (what : String) : Except String α → Except String Unit
  | .ok _ => .ok ()
  | .error e => .error (what ++ ": " ++ e)

def validateAcme (build : Build) (parseUri : UriParser) (listener : ListenerConfig) (acme : AutoTlsConfig) :
    Except String Unit := do
  let at_ := s!"listener {listener.addr}: "
  bailIf (listener.tlsCert.isSome || listener.tlsKey.isSome) (at_ ++ "acme is mutually exclusive with tls_cert/tls_key")
  bailIf listener.tlsClientCa.isSome (at_ ++ "acme combined with tls_client_ca (mTLS) is not supported yet")
  bailIf acme.domains.isEmpty (at_ ++ "acme.domains must list at least one domain")
  acme.directoryUrl.elim (.ok ()) fun url => context (at_ ++ "invalid acme.directory_url") (parseUri url)
  bailIf (!build.acme) (at_ ++ "acme is set but this build was compiled without --features acme")

def validateListener (build : Build) (parseUri : UriParser) (listener : ListenerConfig) : Except String Unit := do
  bailIf (Net.parseSocketAddr listener.addr).isNone
    s!"Invalid listener addr '{listener.addr}': {Net.addrParseError}"
  if listener.protocol = "http" then
    bailIf listener.acme.isSome (s!"listener {listener.addr}: " ++ "acme requires protocol = \"https\"")
  else if listener.protocol = "https" then
    match listener.acme with
    | some acme => validateAcme build parseUri listener acme
    | none =>
      bailIf (listener.tlsCert.isNone || listener.tlsKey.isNone)
        s!"HTTPS listener {listener.addr} requires tls_cert and tls_key (or an acme block)"
  else .error (s!"Unsupported listener protocol '{listener.protocol}'" ++ " (expected \"http\" or \"https\")")
  bailIf (listener.tlsClientCa.isSome && listener.protocol ≠ "https")
    (s!"listener {listener.addr}: " ++ "tls_client_ca requires protocol = \"https\"")

def validateUpstream (route : RouteConfig) (upstream : UpstreamConfig) : Except String Unit := do
  bailIf ("https://".toList.isPrefixOf upstream.addr.toList)
    (s!"Route '{route.name}': upstream '{upstream.addr}' uses https:// but TLS to upstreams " ++
      "is not implemented yet; use an http:// upstream")
  context s!"Route '{route.name}': invalid upstream '{upstream.addr}'" (upstreamHostPort upstream.addr)
  upstream.weight.elim (.ok ()) fun weight => bailIf (maxUpstreamWeight < weight)
    (s!"Route '{route.name}': upstream '{upstream.addr}' weight {weight}" ++
      s!" exceeds the maximum of {maxUpstreamWeight}")

def validateHealthCheck (route : RouteConfig) (hc : HealthCheckConfig) : Except String Unit := do
  context s!"Route '{route.name}': invalid health_check.interval" hc.intervalDuration
  context s!"Route '{route.name}': invalid health_check.timeout" hc.timeoutDuration

def validateMirror (route : RouteConfig) (mirror : MirrorConfig) : Except String Unit := do
  context s!"Route '{route.name}': invalid mirror.addr '{mirror.addr}'" (upstreamHostPort mirror.addr)
  mirror.rate.elim (.ok ()) fun rate =>
    bailIf (100 < rate) s!"Route '{route.name}': mirror.rate must be 0-100, got {rate}"

def validateHeader (route : RouteConfig) (entry : String × String) : Except String Unit := do
  let (name, value) := entry
  bailIf (HeaderName.fromBytes name).isNone s!"Route '{route.name}': invalid header name '{name}': {invalidHeaderName}"
  bailIf (value ≠ "" && (HeaderValue.fromStr value).isNone)
    s!"Route '{route.name}': invalid header value for '{name}': {invalidHeaderValue}"

/-- The request overrides, then the response overrides. -/
def HeaderConfig.all (headers : HeaderConfig) : List (String × String) :=
  headers.request.elim [] StringMap.entries ++ headers.response.elim [] StringMap.entries

def validateRoute (build : Build) (route : RouteConfig) : Except String Unit := do
  bailIf route.upstream.isEmpty s!"Route '{route.name}' has no upstreams"
  route.path.elim (.ok ()) fun path =>
    bailIf (path.toList.head? ≠ some '/') s!"Route '{route.name}': path '{path}' must start with '/'"
  route.upstream.forM (validateUpstream route)
  route.timeoutTotal.elim (.ok ()) fun total =>
    context s!"Route '{route.name}': invalid timeout.total" (parseDuration total)
  route.healthCheck.elim (.ok ()) (validateHealthCheck route)
  bailIf (route.retries = some 0) s!"Route '{route.name}': retries must be at least 1"
  bailIf (route.plugin.isSome && !build.plugins)
    s!"Route '{route.name}': plugin is set but this build was compiled without --features plugins"
  route.mirror.elim (.ok ()) (validateMirror route)
  route.headers.all.forM (validateHeader route)

/-- Reject configs that cannot work. -/
def validate (build : Build) (parseUri : UriParser) (config : Config) : Except String Unit := do
  bailIf config.listener.isEmpty "Config must define at least one [[listener]]"
  bailIf config.route.isEmpty "Config must define at least one [[route]]"
  config.listener.forM (validateListener build parseUri)
  config.route.forM (validateRoute build)

/-! ## What an accepted config satisfies -/

theorem then_ok {first second : Except String Unit} :
    (do first; second) = .ok () ↔ first = .ok () ∧ second = .ok () := by
  cases first with
  | error e => simp [bind, Except.bind]
  | ok u => simp [bind, Except.bind]

theorem bailIf_ok {failed : Bool} {message : String} : bailIf failed message = .ok () ↔ failed = false := by
  cases failed <;> simp [bailIf]

theorem forM_ok {α : Type} {l : List α} {f : α → Except String Unit} :
    l.forM f = .ok () ↔ ∀ x ∈ l, f x = .ok () := by
  induction l with
  | nil => simp [pure, Except.pure]
  | cons x rest ih =>
    change (do f x; rest.forM f) = .ok () ↔ _
    rw [then_ok, ih, List.forall_mem_cons]

theorem validate_route {build : Build} {parseUri : UriParser} {config : Config}
    (accepted : validate build parseUri config = .ok ()) {route : RouteConfig} (member : route ∈ config.route) :
    validateRoute build route = .ok () := by
  unfold validate at accepted
  simp only [then_ok, forM_ok] at accepted
  exact accepted.2.2.2 route member

/-- Every route of an accepted config has an upstream. -/
theorem validate_upstream {build : Build} {parseUri : UriParser} {config : Config}
    (accepted : validate build parseUri config = .ok ()) {route : RouteConfig} (member : route ∈ config.route) :
    route.upstream ≠ [] := by
  have checked := validate_route accepted member
  unfold validateRoute at checked
  simp only [then_ok, bailIf_ok] at checked
  simpa using checked.1

end Torana.Config
