import Torana.Messages
import Torana.Samples

/-!
What `Config::validate` leaves open. An accepted config has overrides that are applied and
durations that are used; but the split of an upstream address lets any text through as a
host, and nothing looks at the path of a health check. The proxy builds a URI for every
destination, and a probe one request, exactly when the hosts and the paths are legal.
-/
namespace Torana
open Http Proxy
open Config (RouteConfig HealthCheckConfig Build)
open Uris (FollowsRfc3986 isCovered isHost isOriginForm readAuthority)

namespace Completeness

/-! ## What the running proxy builds -/

/-- The addresses that the requests of a route are sent to: its upstreams and its mirror. -/
def destinations (route : RouteConfig) : List String :=
  route.upstream.map (·.addr) ++ route.mirror.toList.map (·.addr)

/-- The URI that is put together. -/
def uriText (host : String) (port : Nat) (target : String) : String := s!"http://{host}:{port}{target}"

theorem uri_text (host : String) (port : Nat) (target : String) :
    s!"http://{host}:{port}{target}" = "http://" ++ (s!"{host}:{port}" ++ target) := by
  simp only [String.append_assoc]
  rfl

/-- A request for any target leaves with a URI of which the authority is the configured host and
    port and the rest is the target; only where that is a legal text which the parser does not
    cover need it not leave. -/
def Forwards (parseUri : UriParser) (covered : String → Prop) (addr : String) : Prop :=
  ∃ host port, upstreamHostPort addr = .ok (host, port) ∧
    ∀ (req : Request UpstreamBody) (clientAddr : Net.SocketAddr) (proto : ClientProto) (pathAndQuery : String),
      req.parts.uri.pathAndQuery = some pathAndQuery → isOriginForm pathAndQuery.toList →
      ((isHost host.toList = true → covered (uriText host port pathAndQuery)) →
        ∃ out, prepareRequest parseUri req addr clientAddr proto = .ok out) ∧
      ∀ out, prepareRequest parseUri req addr clientAddr proto = .ok out → ∃ authority,
        out.parts.uri.authority = some authority ∧ out.parts.uri.pathAndQuery = some pathAndQuery ∧
        readAuthority authority.toList = some ⟨none, host.toList, some (Text.decimal port)⟩

/-- A probe sends one request, for the configured path. -/
def Probes (addr path : String) : Prop :=
  ∀ timeout, ∃ host port text next request,
    Health.probeOnce addr path timeout = .act (.exchange timeout host port text) next ∧
      Messages.readRequest text.toList = some request ∧ request.target = path.toList ∧ path.toList.head? = some '/'

/-- An override that removes the field or sets it. -/
def Applied (entry : String × String) : Prop :=
  ∃ name, HeaderName.fromBytes entry.1 = some name ∧
    ((entry.2 = "" ∧ ∀ headers, applyHeaderOverride headers entry = headers.remove name) ∨
      ∃ value, HeaderValue.fromStr entry.2 = some value ∧
        ∀ headers, applyHeaderOverride headers entry = headers.insert name value)

/-- Validation was complete for this config. -/
structure Complete (parseUri : UriParser) (covered : String → Prop) (config : Config) : Prop where
  forwards : ∀ route ∈ config.route, ∀ addr ∈ destinations route, Forwards parseUri covered addr
  probes : ∀ route ∈ config.route, ∀ hc, route.healthCheck = some hc → ∀ upstream ∈ route.upstream,
    Probes upstream.addr hc.probePath
  overrides : ∀ route ∈ config.route, ∀ entry ∈ route.headers.all, Applied entry
  totals : ∀ route ∈ config.route, ∀ total, route.timeoutTotal = some total →
    ∃ d, Config.parseDuration total = .ok d ∧ route.totalDuration = some d
  intervals : ∀ route ∈ config.route, ∀ hc, route.healthCheck = some hc →
    ∃ interval timeout, hc.intervalDuration = .ok interval ∧ hc.timeoutDuration = .ok timeout ∧
      ∀ upstream ∈ route.upstream, ⟨upstream.addr, hc.probePath, interval, timeout⟩ ∈ Health.probeSpecs config

/-! ## What makes it so -/

/-- What stands in front of the port is a host. -/
def hasHost (addr : String) : Bool := (upstreamHostPort addr).toOption.any fun split => isHost split.1.toList

def isLegal (config : Config) : Bool :=
  config.route.all fun route =>
    (destinations route).all hasHost && route.healthCheck.all fun hc => isOriginForm hc.probePath.toList

theorem hasHost_iff {addr : String} :
    hasHost addr = true ↔ ∃ host port, upstreamHostPort addr = .ok (host, port) ∧ isHost host.toList = true := by
  unfold hasHost
  cases split : upstreamHostPort addr with
  | error e => simp [Except.toOption]
  | ok r =>
    obtain ⟨host, port⟩ := r
    simp [Except.toOption]

theorem isLegal_iff {config : Config} : isLegal config = true ↔
    ∀ route ∈ config.route, (∀ addr ∈ destinations route, hasHost addr = true) ∧
      ∀ hc, route.healthCheck = some hc → isOriginForm hc.probePath.toList = true := by
  simp only [isLegal, List.all_eq_true, Bool.and_eq_true, Option.all_eq_true]

/-! ## Requests -/

theorem authority_text (host : String) (port : Nat) :
    s!"{host}:{port}".toList = host.toList ++ ':' :: Text.decimal port := by
  simp [Text.decimal, ToString.toString, Nat.repr]

theorem decimal_digits (port : Nat) : (Text.decimal port).all Char.isDigit = true :=
  List.all_eq_true.mpr fun _ member => Nat.isDigit_of_mem_toDigits (by decide) (by decide) member

theorem authority_read {host : String} (legal : isHost host.toList = true) (port : Nat) :
    readAuthority s!"{host}:{port}".toList = some ⟨none, host.toList, some (Text.decimal port)⟩ := by
  rw [authority_text]
  exact Uris.readAuthority_made legal (decimal_digits port)

theorem authority_value {host : String} (legal : isHost host.toList = true) (port : Nat) :
    ∃ value, HeaderValue.fromStr s!"{host}:{port}" = some value := by
  have visible : isVisibleText s!"{host}:{port}" = true := by
    refine List.all_eq_true.mpr fun c member => ?_
    have range := Uris.authority_visible (by rw [authority_read legal port]; rfl) c member
    simp only [Bool.or_eq_true, Bool.and_eq_true, decide_eq_true_eq]
    exact .inl ⟨by omega, range.2.1⟩
  obtain ⟨value, parsed, -⟩ := fromStr_visible visible
  exact ⟨value, parsed⟩

theorem forwards_iff {parseUri : UriParser} {covered : String → Prop} (follows : FollowsRfc3986 parseUri covered)
    (addr : String) : Forwards parseUri covered addr ↔ hasHost addr = true := by
  rw [hasHost_iff]
  constructor
  · rintro ⟨host, port, split, forwarded⟩
    refine ⟨host, port, split, ?_⟩
    by_contra illegal
    obtain ⟨leaves, reads⟩ := forwarded
      ⟨⟨.get, ⟨none, none, some "/"⟩, .http11, Multimap.empty⟩, .empty⟩ ⟨.v4 0 0 0 0, 0⟩ .http "/" rfl (by decide)
    obtain ⟨out, prepared⟩ := leaves fun legal => absurd legal illegal
    obtain ⟨authority, -, -, read⟩ := reads out prepared
    exact illegal (Uris.readAuthority_host read).1
  · rintro ⟨host, port, split, legal⟩
    refine ⟨host, port, split, fun req clientAddr proto pathAndQuery target origin => ?_⟩
    have read := authority_read legal port
    have asked : req.parts.uri.pathAndQuery.getD "/" = pathAndQuery := by rw [target, Option.getD_some]
    have text : uriText host port pathAndQuery = "http://" ++ s!"{host}:{port}" ++ pathAndQuery := by
      rw [uriText, uri_text]
      exact String.append_assoc.symm
    refine ⟨fun covers => ?_, fun out prepared => ?_⟩
    · obtain ⟨uri, parsed⟩ := follows.accepts s!"{host}:{port}" pathAndQuery (by rw [read]; rfl) origin
        (text ▸ covers legal)
      obtain ⟨value, fits⟩ := authority_value legal port
      rw [← text] at parsed
      exact ⟨_, prepareRequest_made clientAddr proto asked split parsed fits⟩
    · have parsed : parseUri (uriText host port pathAndQuery) = .ok out.parts.uri :=
        prepareRequest_uri prepared asked split
      rw [text] at parsed
      have uri := follows.reads _ _ _ (by rw [read]; rfl) origin parsed
      exact ⟨_, congrArg Uri.authority uri, congrArg Uri.pathAndQuery uri, read⟩

/-! ## Probes -/

def hostField {host : List Char} (legal : isHost host = true) : Messages.Field where
  name := "Host".toList
  value := host
  token := by decide
  legal := Messages.visible_value fun c member =>
    have visible := Uris.hostChar_visible (Uris.host_chars legal c member)
    ⟨visible.1, visible.2.1⟩

def closeField : Messages.Field := ⟨"Connection".toList, "close".toList, by decide, by decide⟩

theorem framed_fields {host : List Char} (legal : isHost host = true) :
    Messages.isFramed [hostField legal, closeField] = true := by
  have single : [hostField legal, closeField].filter (·.isNamed "host") = [hostField legal] := rfl
  have bodiless : [hostField legal, closeField].all
      (fun f => !f.isNamed "content-length" && !f.isNamed "transfer-encoding") = true := rfl
  rw [Messages.isFramed, single, bodiless, Bool.and_true]
  simp only [hostField, Uris.readHostPort_alone legal, Option.isSome_some]

/-- The request of a probe. -/
def probeRequest {path host : List Char} (origin : isOriginForm path = true) (legal : isHost host = true) :
    Messages.Request :=
  ⟨"GET".toList, path, [hostField legal, closeField], by decide, origin, framed_fields legal⟩

/-- What `probe_once` writes. -/
def probeText (path host : String) : String :=
  s!"GET {path} HTTP/1.1\r\nHost: {host}\r\nConnection: close\r\n\r\n"

theorem probe_text {path host : String} (origin : isOriginForm path.toList = true) (legal : isHost host.toList = true) :
    (probeText path host).toList = Messages.writeRequest (probeRequest origin legal) := by
  have first : (hostField legal).name = "Host".toList ∧ (hostField legal).value = host.toList := ⟨rfl, rfl⟩
  have second : closeField.name = "Connection".toList ∧ closeField.value = "close".toList := ⟨rfl, rfl⟩
  simp only [probeText, toString, String.toList_append, Messages.writeRequest, probeRequest, List.flatMap_cons,
    List.flatMap_nil, Messages.writeLine, Messages.writeField]
  rw [first.1, first.2, second.1, second.2]
  simp only [List.append_assoc, List.cons_append, List.nil_append]
  have start : "GET ".toList = "GET".toList ++ [' '] := by decide
  have middle : " HTTP/1.1\r\nHost: ".toList =
      ' ' :: ("HTTP/1.1".toList ++ '\r' :: '\n' :: ("Host".toList ++ [':', ' '])) := by
    decide
  have rest : "\r\nConnection: close\r\n\r\n".toList =
      '\r' :: '\n' :: ("Connection".toList ++ ':' :: ' ' :: ("close".toList ++ ['\r', '\n', '\r', '\n'])) := by decide
  rw [start, middle, rest]
  simp only [List.append_assoc, List.cons_append, List.nil_append]

theorem probeOnce_sends {addr host : String} {port : Nat} (split : upstreamHostPort addr = .ok (host, port))
    (path : String) (timeout : Config.Duration) :
    ∃ next, Health.probeOnce addr path timeout = .act (.exchange timeout host port (probeText path host)) next := by
  unfold Health.probeOnce
  rw [split]
  exact ⟨_, rfl⟩

theorem probes_iff {addr host path : String} {port : Nat} (split : upstreamHostPort addr = .ok (host, port))
    (legal : isHost host.toList = true) : Probes addr path ↔ isOriginForm path.toList = true := by
  constructor
  · intro probes
    obtain ⟨_, _, text, next, request, -, -, target, -⟩ := probes 0
    rw [← target]
    exact request.origin
  · intro origin timeout
    obtain ⟨next, sends⟩ := probeOnce_sends split path timeout
    refine ⟨host, port, probeText path host, next, probeRequest origin legal, sends, ?_, rfl, Uris.originForm_head origin⟩
    rw [probe_text origin legal]
    exact Messages.readRequest_written _

/-! ## Overrides and durations -/

theorem context_ok {α : Type} {what : String} {x : Except String α} :
    Config.context what x = .ok () ↔ ∃ value, x = .ok value := by
  cases x with
  | error e => simp [Config.context]
  | ok value => simp [Config.context]

theorem elim_ok {α : Type} {x : Option α} {f : α → Except String Unit} :
    x.elim (.ok ()) f = .ok () ↔ ∀ value, x = some value → f value = .ok () := by
  cases x <;> simp

/-- The parts of the check of a route that later code relies on. -/
theorem validateRoute_ok {build : Build} {route : RouteConfig} (checked : Config.validateRoute build route = .ok ()) :
    (∀ upstream ∈ route.upstream, Config.validateUpstream route upstream = .ok ()) ∧
      (∀ total, route.timeoutTotal = some total → ∃ d, Config.parseDuration total = .ok d) ∧
      (∀ hc, route.healthCheck = some hc → Config.validateHealthCheck route hc = .ok ()) ∧
      ∀ entry ∈ route.headers.all, Config.validateHeader route entry = .ok () := by
  unfold Config.validateRoute at checked
  simp only [Config.then_ok, Config.forM_ok, elim_ok, context_ok] at checked
  obtain ⟨-, -, upstreams, total, health, -, -, -, headers⟩ := checked
  exact ⟨upstreams, total, health, headers⟩

theorem applied_header {route : RouteConfig} {entry : String × String}
    (checked : Config.validateHeader route entry = .ok ()) : Applied entry := by
  obtain ⟨name, value⟩ := entry
  simp only [Config.validateHeader, Config.then_ok, Config.bailIf_ok, Bool.and_eq_false_iff, decide_eq_false_iff_not,
    Option.isNone_eq_false_iff, Option.isSome_iff_exists, ne_eq, not_not] at checked
  obtain ⟨⟨parsed, named⟩, empty | ⟨legal, fits⟩⟩ := checked
  · refine ⟨parsed, named, .inl ⟨empty, fun headers => ?_⟩⟩
    simp only [applyHeaderOverride, named, if_pos empty]
  · by_cases empty : value = ""
    · refine ⟨parsed, named, .inl ⟨empty, fun headers => ?_⟩⟩
      simp only [applyHeaderOverride, named, if_pos empty]
    · refine ⟨parsed, named, .inr ⟨legal, fits, fun headers => ?_⟩⟩
      simp only [applyHeaderOverride, named, if_neg empty, fits]

theorem healthCheck_ok {route : RouteConfig} {hc : HealthCheckConfig}
    (checked : Config.validateHealthCheck route hc = .ok ()) :
    ∃ interval timeout, hc.intervalDuration = .ok interval ∧ hc.timeoutDuration = .ok timeout := by
  simp only [Config.validateHealthCheck, Config.then_ok, context_ok] at checked
  obtain ⟨⟨interval, first⟩, timeout, second⟩ := checked
  exact ⟨interval, timeout, first, second⟩

/-- The probers of a route get what was configured. -/
theorem probeSpecs_configured {config : Config} {route : RouteConfig} (member : route ∈ config.route)
    {hc : HealthCheckConfig} (check : route.healthCheck = some hc) {interval timeout : Config.Duration}
    (first : hc.intervalDuration = .ok interval) (second : hc.timeoutDuration = .ok timeout)
    {upstream : Config.UpstreamConfig} (listed : upstream ∈ route.upstream) :
    ⟨upstream.addr, hc.probePath, interval, timeout⟩ ∈ Health.probeSpecs config := by
  refine List.mem_flatMap.mpr ⟨route, member, ?_⟩
  rw [check]
  simp only [first, second, Except.toOption, Option.getD_some]
  exact List.mem_map.mpr ⟨upstream, listed, rfl⟩

/-! ## Completeness -/

/-- Validation is complete for a config exactly when its destinations have hosts that a URI can
    name and the paths of its health checks are in origin form. -/
theorem complete_iff {build : Build} {parseUri : UriParser} {covered : String → Prop} {config : Config}
    (accepted : Config.validate build parseUri config = .ok ()) (follows : FollowsRfc3986 parseUri covered) :
    Complete parseUri covered config ↔ isLegal config = true := by
  rw [isLegal_iff]
  constructor
  · intro complete route member
    have hosts : ∀ addr ∈ destinations route, hasHost addr = true := by
      intro addr listed
      exact (forwards_iff follows addr).mp (complete.forwards route member addr listed)
    refine ⟨hosts, ?_⟩
    intro hc check
    obtain ⟨upstream, listed⟩ := List.exists_mem_of_ne_nil _ (Config.validate_upstream accepted member)
    have destination : upstream.addr ∈ destinations route := List.mem_append_left _ (List.mem_map_of_mem listed)
    obtain ⟨host, port, split, legal⟩ := hasHost_iff.mp (hosts _ destination)
    exact (probes_iff split legal).mp (complete.probes route member hc check upstream listed)
  · intro legal
    have checks := fun (route : RouteConfig) (member : route ∈ config.route) =>
      validateRoute_ok (Config.validate_route accepted member)
    refine ⟨?_, ?_, ?_, ?_, ?_⟩
    · intro route member addr listed
      exact (forwards_iff follows addr).mpr ((legal route member).1 addr listed)
    · intro route member hc check upstream listed
      have destination : upstream.addr ∈ destinations route := List.mem_append_left _ (List.mem_map_of_mem listed)
      obtain ⟨host, port, split, named⟩ := hasHost_iff.mp ((legal route member).1 _ destination)
      exact (probes_iff split named).mpr ((legal route member).2 hc check)
    · intro route member entry listed
      exact applied_header ((checks route member).2.2.2 entry listed)
    · intro route member total set
      obtain ⟨d, parsed⟩ := (checks route member).2.1 total set
      refine ⟨d, parsed, ?_⟩
      simp only [RouteConfig.totalDuration, set, Option.bind_some, parsed, Except.toOption]
    · intro route member hc check
      obtain ⟨interval, timeout, first, second⟩ := healthCheck_ok ((checks route member).2.2.1 hc check)
      exact ⟨interval, timeout, first, second, fun upstream listed =>
        probeSpecs_configured member check first second listed⟩

/-- A route with a probe path, and what its upstream's address says. -/
def checkedConfig (addr path : String) : Config :=
  Samples.config [{ Samples.route "api" addr with
    timeoutTotal := some "5s"
    healthCheck := some ⟨some path, some "10s", none⟩
    mirror := some ⟨"http://[::1]:9001", some 50⟩ }]

theorem complete_iff_checked :
    Complete Uris.parse (isCovered · = true) (checkedConfig "http://localhost:9000/" "/up?deep=1") := by
  have accepted :
      Config.validate Samples.build Uris.parse (checkedConfig "http://localhost:9000/" "/up?deep=1") = .ok () := by
    decide
  exact (complete_iff accepted Uris.follows_parse).mpr (by decide)

/-- An accepted path that is no target, and an accepted host that the URI cuts off: the proxy
    would send the requests to the port 80 of `backend`. -/
theorem complete_unless :
    (Config.validate Samples.build Uris.parse (checkedConfig "http://localhost:9000" "up") = .ok () ∧
      ¬Complete Uris.parse (isCovered · = true) (checkedConfig "http://localhost:9000" "up")) ∧
    Config.validate Samples.build Uris.parse (checkedConfig "http://backend#1:8080" "/up") = .ok () ∧
      ¬Complete Uris.parse (isCovered · = true) (checkedConfig "http://backend#1:8080" "/up") ∧
      Uris.parse "http://backend#1:8080/" = .ok ⟨some "http", some "backend", some "/"⟩ := by
  refine ⟨⟨by decide, ?_⟩, by decide, ?_, by decide⟩
  · intro complete
    obtain ⟨_, _, _, _, _, -, -, -, head⟩ := complete.probes _ List.mem_cons_self _ rfl _ List.mem_cons_self 0
    exact absurd head (by decide)
  · intro complete
    have host := (forwards_iff Uris.follows_parse _).mp (complete.forwards _ List.mem_cons_self _ List.mem_cons_self)
    exact absurd host (by decide)

end Completeness
end Torana
