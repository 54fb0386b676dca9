import Torana.Targets

/-!
Where a probe of an upstream goes and where its requests go. Both are given the host and the
port of one address; the connector of the requests takes the brackets off a host before it is
read as an address, and a probe has it read as it stands, so that an address in brackets is
looked up as a name.
-/
namespace Torana
open Http Proxy
open AbsoluteUris (Reads startsTarget)
open Completeness (uriText)
open Uris (isRegName isIpLiteral isIpv6Address readAuthority)
open Targets (ReadsPort)

namespace Dialing

/-! ## Endpoints -/

/-- An address and a port of a peer. -/
abbrev Endpoint := Net.IpAddr × Nat

/-- What a host and a port lead to: the host is read as an address, or else looked up. -/
def endpoints (resolve : String → List Net.IpAddr) (host : String) (port : Nat) : List Endpoint :=
  match Net.parseIpAddr host.toList with
  | some ip => [(ip, port)]
  | none => (resolve host).map fun ip => (ip, port)

/-- No name begins with a bracket. -/
def NoBrackets (resolve : String → List Net.IpAddr) : Prop :=
  ∀ name, name.toList.head? = some '[' → resolve name = []

/-- `trim_start_matches('[').trim_end_matches(']')`. -/
def unbracketed (host : List Char) : List Char := (host.dropWhile (· = '[')).rdropWhile (· = ']')

/-- A connector takes the host of the authority, without its brackets. -/
def ReadsHost (connectHost : Uri → String) : Prop :=
  ∀ uri authority parts, uri.authority = some authority → readAuthority authority.toList = some parts →
    connectHost uri = String.ofList (unbracketed parts.host)

/-- Where a probe goes, if it is sent at all. -/
def probeEndpoints (resolve : String → List Net.IpAddr) (addr path : String) (timeout : Config.Duration) :
    List Endpoint :=
  match Health.probeOnce addr path timeout with
  | .act (.exchange _ host port _) _ => endpoints resolve host port
  | _ => []

/-- Where a request goes, if it leaves at all. -/
def requestEndpoints (resolve : String → List Net.IpAddr) (connectHost : Uri → String) (connectPort : Uri → Nat)
    (parseUri : UriParser) (req : Request UpstreamBody) (addr : String) (clientAddr : Net.SocketAddr)
    (proto : ClientProto) : List Endpoint :=
  match prepareRequest parseUri req addr clientAddr proto with
  | .ok out => endpoints resolve (connectHost out.parts.uri) (connectPort out.parts.uri)
  | .error _ => []

/-- The probes of an address go to the same endpoints as each request for a path or a query that
    leaves for it. -/
def Agrees (resolve : String → List Net.IpAddr) (connectHost : Uri → String) (connectPort : Uri → Nat)
    (parseUri : UriParser) (isTarget : String → Prop) (addr : String) : Prop :=
  ∀ (path : String) (timeout : Config.Duration) (req out : Request UpstreamBody) (clientAddr : Net.SocketAddr)
    (proto : ClientProto), (∀ target, req.parts.uri.pathAndQuery = some target → isTarget target) →
    startsTarget (req.parts.uri.pathAndQuery.getD "/").toList = true →
    prepareRequest parseUri req addr clientAddr proto = .ok out →
    probeEndpoints resolve addr path timeout =
      requestEndpoints resolve connectHost connectPort parseUri req addr clientAddr proto

/-! ## Hosts in brackets -/

theorem toDigit_bracket (radix : Nat) : Net.toDigit radix '[' = none := by
  have digit : '['.isDigit = false := by decide
  have lower : '['.isLower = false := by decide
  have upper : '['.isUpper = false := by decide
  simp [Net.toDigit, digit, lower, upper]

theorem readNumber_bracket (radix bound : Nat) (maxDigits : Option Nat) (zeros : Bool) (rest : List Char) :
    Net.readNumber radix bound maxDigits zeros ('[' :: rest) = none := by
  have empty : ('[' :: rest).takeWhile (fun c => (Net.toDigit radix c).isSome) = [] := by
    rw [List.takeWhile_cons_of_neg (by simp [toDigit_bracket])]
  simp [Net.readNumber, empty]

theorem readIpv4Addr_bracket (rest : List Char) : Net.readIpv4Addr ('[' :: rest) = none := by
  simp [Net.readIpv4Addr, readNumber_bracket]

/-- An address in brackets is no address as it stands. -/
theorem parseIpAddr_bracket (rest : List Char) : Net.parseIpAddr ('[' :: rest) = none := by
  have groups : Net.readGroups 8 true ('[' :: rest) = ([], false, '[' :: rest) := by
    rw [Net.readGroups]
    simp [Net.readSeparator, readIpv4Addr_bracket, readNumber_bracket]
  have ipv6 : Net.readIpv6Addr ('[' :: rest) = none := by
    simp [Net.readIpv6Addr, groups, Net.readGivenChar]
  simp only [Net.parseIpAddr, readIpv4Addr_bracket, ipv6]

theorem parseIpAddr_ipv6 {s : List Char} (address : isIpv6Address s = true) : ∃ ip, Net.parseIpAddr s = some ip := by
  obtain ⟨⟨groups, rest⟩, read, whole⟩ := (Option.any_eq_true _ _).mp (Bool.and_eq_true _ _ ▸ address).2
  rw [decide_eq_true_eq] at whole
  subst whole
  unfold Net.parseIpAddr
  split
  · exact ⟨_, rfl⟩
  · rw [read]
    exact ⟨_, rfl⟩

theorem dropWhile_absent {c : Char} {s : List Char} (absent : c ∉ s) : s.dropWhile (· = c) = s := by
  cases s with
  | nil => rfl
  | cons first rest =>
    have other : first ≠ c := fun same => absent (same ▸ List.mem_cons_self)
    rw [List.dropWhile_cons_of_neg (by simpa using other)]

theorem rdropWhile_absent {c : Char} {s : List Char} (absent : c ∉ s) : s.rdropWhile (· = c) = s := by
  rw [List.rdropWhile, dropWhile_absent (by simpa using absent), List.reverse_reverse]

theorem unbracketed_name {host : List Char} (name : isRegName host = true) : unbracketed host = host := by
  have chars := Uris.regName_chars name
  have left : '[' ∉ host := fun member => absurd (chars _ member) (by decide)
  have right : ']' ∉ host := fun member => absurd (chars _ member) (by decide)
  rw [unbracketed, dropWhile_absent left, rdropWhile_absent right]

theorem unbracketed_literal {inner : List Char} (left : '[' ∉ inner) (right : ']' ∉ inner) :
    unbracketed ('[' :: (inner ++ [']'])) = inner := by
  have left' : '[' ∉ inner ++ [']'] := by simp [left]
  rw [unbracketed, List.dropWhile_cons_of_pos (by decide), dropWhile_absent left', List.rdropWhile_concat_pos _ _ _ rfl,
    rdropWhile_absent right]

/-! ## Agreement -/

/-- A literal of IPv6 in brackets. -/
def isIpv6Literal (host : List Char) : Bool := isIpLiteral host && isIpv6Address (host.drop 1).dropLast

/-- Such a host leads a probe nowhere and a request to the address that it names. -/
theorem endpoints_literal {resolve : String → List Net.IpAddr} (noBrackets : NoBrackets resolve) {host : String}
    (literal : isIpv6Literal host.toList = true) (port : Nat) :
    ∃ ip, endpoints resolve host port = [] ∧
      endpoints resolve (String.ofList (unbracketed host.toList)) port = [(ip, port)] := by
  obtain ⟨bracketed, address⟩ := (Bool.and_eq_true _ _).mp literal
  obtain ⟨inner, parts, chars⟩ := Uris.literal_inner bracketed
  have left : '[' ∉ inner := fun member => absurd (chars _ member) (by decide)
  have right : ']' ∉ inner := fun member => absurd (chars _ member) (by decide)
  rw [parts, List.drop_succ_cons, List.drop_zero, List.dropLast_concat] at address
  obtain ⟨ip, parsed⟩ := parseIpAddr_ipv6 address
  refine ⟨ip, ?_, ?_⟩
  · have unnamed := noBrackets host (by rw [parts]; rfl)
    simp only [endpoints, parts, parseIpAddr_bracket, unnamed, List.map_nil]
  · simp only [endpoints, parts, unbracketed_literal left right, String.toList_ofList, parsed]

theorem probeEndpoints_split {addr host : String} {port : Nat} (split : upstreamHostPort addr = .ok (host, port))
    (resolve : String → List Net.IpAddr) (path : String) (timeout : Config.Duration) :
    probeEndpoints resolve addr path timeout = endpoints resolve host port := by
  obtain ⟨next, sends⟩ := Completeness.probeOnce_sends split path timeout
  rw [probeEndpoints, sends]

section
variable {resolve : String → List Net.IpAddr} {connectHost : Uri → String} {connectPort : Uri → Nat}
  {parseUri : UriParser} {isTarget covered : String → Prop}

theorem requestEndpoints_split (reads : Reads parseUri isTarget covered) (readsHost : ReadsHost connectHost)
    (readsPort : ReadsPort connectPort) {addr host : String} {port : Nat}
    (split : upstreamHostPort addr = .ok (host, port)) (legal : Uris.isHost host.toList = true)
    {req out : Request UpstreamBody}
    (delivered : ∀ target, req.parts.uri.pathAndQuery = some target → isTarget target)
    (starts : startsTarget (req.parts.uri.pathAndQuery.getD "/").toList = true) {clientAddr : Net.SocketAddr}
    {proto : ClientProto} (prepared : prepareRequest parseUri req addr clientAddr proto = .ok out) :
    requestEndpoints resolve connectHost connectPort parseUri req addr clientAddr proto =
      endpoints resolve (String.ofList (unbracketed host.toList)) port := by
  obtain ⟨uri, connects⟩ := Targets.directed_of_starts reads readsPort split legal delivered starts prepared
  have named := readsHost _ _ _ (congrArg Uri.authority uri) (Completeness.authority_read legal port)
  rw [requestEndpoints, prepared]
  simp only [connects, named]

/-- The probes of an address with a name or an address as its host and its requests agree where
    they go exactly when no address in brackets is in it, as long as the parser covers the root
    of the address. -/
theorem agrees_iff (reads : Reads parseUri isTarget covered) (readsHost : ReadsHost connectHost)
    (readsPort : ReadsPort connectPort) (noBrackets : NoBrackets resolve) {addr host : String} {port : Nat}
    (split : upstreamHostPort addr = .ok (host, port))
    (named : isRegName host.toList = true ∨ isIpv6Literal host.toList = true) :
    (covered (uriText host port "/") →
      (Agrees resolve connectHost connectPort parseUri isTarget addr ↔ isIpv6Literal host.toList = false)) ∧
    (isIpv6Literal host.toList = false → Agrees resolve connectHost connectPort parseUri isTarget addr) := by
  have legal : Uris.isHost host.toList = true := by
    rw [Uris.isHost, Bool.or_eq_true]
    exact named.symm.imp_left fun literal => (Bool.and_eq_true _ _ ▸ literal).1
  have agree : isIpv6Literal host.toList = false →
      Agrees resolve connectHost connectPort parseUri isTarget addr := by
    intro other path timeout req out clientAddr proto delivered starts prepared
    have name : isRegName host.toList = true := by
      refine named.resolve_right ?_
      rw [other]
      exact Bool.false_ne_true
    rw [probeEndpoints_split split,
      requestEndpoints_split reads readsHost readsPort split legal delivered starts prepared,
      unbracketed_name name, String.ofList_toList]
  refine ⟨fun covers => ⟨fun agrees => ?_, agree⟩, agree⟩
  cases literal : isIpv6Literal host.toList with
  | false => rfl
  | true =>
    -- A request for the root tells the two apart.
    have delivered : ∀ target, (Targets.asking .get "/").parts.uri.pathAndQuery = some target → isTarget target := by
      rintro _ ⟨⟩
      exact reads.root
    have starts : startsTarget ((Targets.asking .get "/").parts.uri.pathAndQuery.getD "/").toList = true := by decide
    obtain ⟨out, prepared⟩ : ∃ out, prepareRequest parseUri (Targets.asking .get "/") addr Samples.conn.clientAddr
        .http = .ok out := Targets.covered_leaves reads split legal delivered starts covers _ _
    have root := agrees "/" 0 (Targets.asking .get "/") out Samples.conn.clientAddr .http delivered starts prepared
    rw [probeEndpoints_split split,
      requestEndpoints_split reads readsHost readsPort split legal delivered starts prepared] at root
    obtain ⟨ip, unprobed, requested⟩ := endpoints_literal noBrackets literal port
    rw [unprobed, requested] at root
    cases root

end

/-! ## An address in brackets -/

/-- The host that a connector takes out of a URI. -/
def connectHost (uri : Uri) : String :=
  ((uri.authority.bind fun authority => readAuthority authority.toList).elim "" fun parts =>
    String.ofList (unbracketed parts.host))

theorem readsHost_connectHost : ReadsHost connectHost := by
  intro uri authority parts named read
  rw [connectHost, named, Option.bind_some, read, Option.elim_some]

/-- A resolver that knows one name. -/
def resolve (name : String) : List Net.IpAddr := if name = "backend" then [.v4 10 0 0 1] else []

theorem noBrackets_resolve : NoBrackets resolve := by
  intro name bracket
  rw [resolve, if_neg]
  rintro rfl
  exact absurd bracket (by decide)

theorem agrees_iff_name :
    Agrees resolve connectHost Targets.connectPort AbsoluteUris.parse AbsoluteUris.IsTarget "http://backend:8080" := by
  have split : upstreamHostPort "http://backend:8080" = .ok ("backend", 8080) := by decide
  exact ((agrees_iff AbsoluteUris.reads_parse readsHost_connectHost Targets.readsPort_connectPort noBrackets_resolve
    split (.inl (by decide))).1 (by decide)).mpr (by decide)

/-- Of an accepted address the requests reach the upstream and the probes nothing. -/
theorem literal_unprobed :
    Config.validate Samples.build AbsoluteUris.parse (Completeness.checkedConfig "http://[::1]:8080" "/") = .ok () ∧
      probeEndpoints resolve "http://[::1]:8080" "/" 2000 = [] ∧
      requestEndpoints resolve connectHost Targets.connectPort AbsoluteUris.parse (Targets.asking .get "/")
        "http://[::1]:8080" Samples.conn.clientAddr .http = [(.v6 #v[0, 0, 0, 0, 0, 0, 0, 1], 8080)] ∧
      ¬Agrees resolve connectHost Targets.connectPort AbsoluteUris.parse AbsoluteUris.IsTarget "http://[::1]:8080" := by
  have probed : probeEndpoints resolve "http://[::1]:8080" "/" 2000 = [] := by decide +kernel
  have requested : requestEndpoints resolve connectHost Targets.connectPort AbsoluteUris.parse
      (Targets.asking .get "/") "http://[::1]:8080" Samples.conn.clientAddr .http =
        [(.v6 #v[0, 0, 0, 0, 0, 0, 0, 1], 8080)] := by decide +kernel
  refine ⟨by decide +kernel, probed, requested, ?_⟩
  intro agrees
  have delivered : ∀ target, (Targets.asking .get "/").parts.uri.pathAndQuery = some target →
      AbsoluteUris.IsTarget target := by
    rintro _ ⟨⟩
    exact AbsoluteUris.reads_parse.root
  cases prepared : prepareRequest AbsoluteUris.parse (Targets.asking .get "/") "http://[::1]:8080"
      Samples.conn.clientAddr .http with
  | error e =>
    rw [requestEndpoints, prepared] at requested
    cases requested
  | ok out =>
    have same := agrees "/" 2000 (Targets.asking .get "/") out Samples.conn.clientAddr .http delivered (by decide)
      prepared
    rw [probed, requested] at same
    cases same

end Dialing
end Torana
