import Torana.HopByHop
import Torana.Overrides

/-!
The chain of `x-forwarded-for`. The proxy puts the client's address behind the first line
that came and that line's text in place of all lines, so that what further lines and lines
with opaque bytes list is lost.
-/
namespace Torana
open Http Proxy
open Config (RouteConfig Build)

namespace ForwardedFor
open FieldLists Server Overrides
open HopByHop (chars)

/-- The addresses that the lines list. -/
def chain (headers : HeaderMap) : List (List Char) := listed ((headers.getAll .xForwardedFor).map chars)

/-- There is nothing to keep, or the first line keeps all of it: it is text that no override of
    `Connection` takes away, and no line behind it lists anything. -/
def Appendable (route : RouteConfig) (headers : HeaderMap) : Prop :=
  chain headers = [] ∨
    (HeaderName.xForwardedFor ∉ connectionOptions (overriddenHeaders route headers) ∧
      ∃ first rest, headers.getAll .xForwardedFor = first :: rest ∧ first.toStr ≠ none ∧ listed (rest.map chars) = [])

/-! ## One value -/

/-- What is kept of the chain. -/
def kept (lines : List HeaderValue) : List (List Char) :=
  (lines.head?.bind HeaderValue.toStr).elim [] fun text => elements text.toList

theorem trimOws_addr (ip : Net.IpAddr) : trimOws ip.toText.toList = ip.toText.toList := by
  have plain : ∀ c ∈ ip.toText.toList, Text.isWhitespace c = isOws c := by
    intro c member
    exact visible_isOws (.inl (Boundary.addrChar_plain (Boundary.toText_chars ip c member)).1)
  rw [← trim_eq_trimOws plain]
  exact Boundary.addr_trim ip

theorem intercalate_ne_nil {α : Type} {sep first second : List α} {rest : List (List α)} (filled : sep ≠ []) :
    sep.intercalate (first :: second :: rest) ≠ [] := by
  rw [List.intercalate_cons_of_ne_nil (List.cons_ne_nil second rest)]
  intro empty
  exact filled (List.append_eq_nil_iff.mp (List.append_eq_nil_iff.mp empty).1).2

theorem writeSegments_ne_nil {segments : List UInt16} (many : 2 ≤ segments.length) :
    Net.writeSegments segments ≠ [] := by
  match segments, many with
  | first :: second :: rest, _ => exact intercalate_ne_nil (by decide)

theorem addr_ne_nil (ip : Net.IpAddr) : ip.toText.toList ≠ [] := by
  cases ip with
  | v4 a b c d =>
    rw [Net.IpAddr.toText, String.toList_ofList]
    exact intercalate_ne_nil (by decide)
  | v6 segments =>
    have eight : segments.toList.length = 8 := segments.size_toArray
    unfold Net.IpAddr.toText
    simp only
    split
    · rw [String.toList_ofList]
      exact List.append_ne_nil_of_left_ne_nil (by decide) _
    · split
      · rw [String.toList_ofList]
        exact List.append_ne_nil_of_left_ne_nil (List.append_ne_nil_of_right_ne_nil _ (by decide)) _
      · rw [String.toList_ofList]
        exact writeSegments_ne_nil (by omega)

/-- The client's address is put behind what is kept. -/
theorem chain_appended (headers : HeaderMap) (clientAddr : Net.SocketAddr) (proto : ClientProto) :
    chain (appendForwardedHeaders headers clientAddr proto) =
      kept (headers.getAll .xForwardedFor) ++ [clientAddr.ip.toText.toList] := by
  have comma := Boundary.addr_no_comma clientAddr.ip
  have trimmed := trimOws_addr clientAddr.ip
  have filled := addr_ne_nil clientAddr.ip
  obtain ⟨value, -, reads, alone⟩ := Boundary.getAll_chain headers clientAddr proto
  have text := HopByHop.toStr_chars reads
  rw [chain, alone, List.map_singleton, listed, List.flatMap_singleton, ← text, kept]
  unfold Multimap.get
  cases (headers.getAll .xForwardedFor).head?.bind HeaderValue.toStr with
  | none => exact elements_single comma trimmed filled
  | some existing =>
    rw [Boundary.toList_chain, elements_appended _ comma trimmed filled]
    rfl

/-! ## An attempt -/

/-- What an attempt carries, when no override is of the chain. -/
theorem attempt_chain {parseUri : UriParser} {conn : Conn} {route : RouteConfig} {parts : Parts} {body : UpstreamBody}
    {addr : String} {out : Request UpstreamBody}
    (prepared : prepareRequest parseUri (attemptRequest conn route parts body) addr conn.clientAddr
      conn.clientProto = .ok out)
    (free : ∀ entry ∈ entries route, HeaderName.fromBytes entry.1 ≠ some .xForwardedFor) :
    chain out.parts.headers =
      kept (if HeaderName.xForwardedFor ∈ connectionOptions (overriddenHeaders route parts.headers) then []
        else parts.headers.getAll .xForwardedFor) ++ [conn.clientAddr.ip.toText.toList] := by
  have endToEnd : HeaderName.xForwardedFor ∉ hopByHopHeaders := by decide
  have notHost : HeaderName.xForwardedFor ≠ .host := by decide
  have options : connectionOptions (setIdentity (overriddenHeaders route parts.headers) conn.clientCertFingerprint) =
      connectionOptions (overriddenHeaders route parts.headers) :=
    connectionOptions_congr (Identity.getAll_setIdentity_ne _ _ (by decide))
  have lines : (setIdentity (overriddenHeaders route parts.headers) conn.clientCertFingerprint).getAll .xForwardedFor =
      parts.headers.getAll .xForwardedFor := by
    rw [Identity.getAll_setIdentity_ne _ _ (by decide), overriddenHeaders_eq, getAll_overrides_ne _ _ free]
  obtain ⟨host, port, uri, value, -, -, rfl⟩ := prepareRequest_ok prepared
  rw [chain_appended, Multimap.getAll_insert, if_neg notHost, getAll_strip]
  simp only [endToEnd, false_or]
  rw [← options, ← lines]
  rfl

theorem kept_chain_iff {route : RouteConfig} {headers : HeaderMap} :
    kept (if HeaderName.xForwardedFor ∈ connectionOptions (overriddenHeaders route headers) then []
      else headers.getAll .xForwardedFor) = chain headers ↔ Appendable route headers := by
  unfold Appendable
  by_cases nominated : HeaderName.xForwardedFor ∈ connectionOptions (overriddenHeaders route headers)
  · rw [if_pos nominated]
    exact ⟨fun same => .inl same.symm, fun appendable => (appendable.resolve_right fun given => given.1 nominated).symm⟩
  · rw [if_neg nominated, chain]
    cases lines : headers.getAll .xForwardedFor with
    | nil => exact ⟨fun _ => .inl rfl, fun _ => rfl⟩
    | cons first rest =>
      have parts : listed ((first :: rest).map chars) = elements (chars first) ++ listed (rest.map chars) := rfl
      rw [parts, kept, List.head?_cons, Option.bind_some]
      cases reads : first.toStr with
      | none =>
        rw [Option.elim_none]
        constructor
        · intro empty
          exact .inl empty.symm
        · rintro (empty | ⟨-, _, _, same, text, -⟩)
          · exact empty.symm
          · cases same
            exact absurd reads text
      | some text =>
        rw [Option.elim_some, HopByHop.toStr_chars reads, List.self_eq_append_right]
        constructor
        · intro empty
          exact .inr ⟨nominated, first, rest, rfl, by rw [reads]; exact Option.some_ne_none text, empty⟩
        · rintro (empty | ⟨-, _, _, same, -, empty⟩)
          · exact (List.append_eq_nil_iff.mp empty).2
          · cases same
            exact empty

/-- An attempt carries all that the client's lines list, and the client's address behind it,
    exactly when the first line keeps all of it. -/
theorem chain_appended_iff (build : Build) (crates : Crates) (conn : Conn) (route : RouteConfig) (req : Request Incoming)
    (out : Request UpstreamBody) (attempt : Attempts build crates conn route req out)
    (free : ∀ entry ∈ entries route, HeaderName.fromBytes entry.1 ≠ some .xForwardedFor) :
    chain out.parts.headers = chain req.parts.headers ++ [conn.clientAddr.ip.toText.toList] ↔
      Appendable route req.parts.headers := by
  obtain ⟨body, addr, prepared⟩ := attempts_prepared attempt
  rw [attempt_chain prepared free, List.append_cancel_right_eq]
  exact kept_chain_iff

/-! ## Chains on two lines -/

def plainRoute : RouteConfig := Samples.route "api" "http://10.0.0.1:80"
def plainStore : Store := Samples.store (Samples.config [plainRoute]) Table.empty

/-- What `handle` performs for a request with these lines, with upstreams that answer. -/
def relayedTrace (headers : HeaderMap) : History × Program (Response ProxyBody) :=
  Prog.follow (Samples.answers Samples.unreloaded plainStore)
    (handle Samples.build Samples.unreloaded Samples.conn (Samples.get headers))

/-- The event is an attempt that carries this chain. -/
def carriesChain (headers : HeaderMap) (addresses : List (List Char)) (before : History) (e : Event Act.Res) : Bool :=
  Handling.selected (Samples.get headers) before = some plainRoute &&
    (attemptOf e).any fun out => chain out.parts.headers = addresses

theorem attempt_relays {headers : HeaderMap} {addresses : List (List Char)}
    (shown : Pool.somewhere (carriesChain headers addresses) [] (relayedTrace headers).1 = true) :
    ∃ out, Nonempty (Attempts Samples.build Samples.unreloaded Samples.conn plainRoute (Samples.get headers) out) ∧
      chain out.parts.headers = addresses := by
  obtain ⟨out, attempt, held⟩ := attempts_shown shown
  exact ⟨out, attempt, of_decide_eq_true held⟩

theorem plain_free : ∀ entry ∈ entries plainRoute, HeaderName.fromBytes entry.1 ≠ some .xForwardedFor := by
  intro entry member
  cases member

/-- Two addresses on one line. -/
def oneLine : HeaderMap :=
  Samples.field .xForwardedFor ⟨Text.asBytes "203.0.113.5,198.51.100.2".toList, by decide⟩

/-- The second of them on a line of its own, as a proxy adds it that does not know of the first. -/
def twoLines : HeaderMap :=
  (Samples.field .xForwardedFor ⟨Text.asBytes "203.0.113.5".toList, by decide⟩).append .xForwardedFor
    ⟨Text.asBytes "198.51.100.2".toList, by decide⟩

theorem chain_appended_iff_line :
    ∃ out : Request UpstreamBody, chain out.parts.headers =
      ["203.0.113.5".toList, "198.51.100.2".toList] ++ [Samples.conn.clientAddr.ip.toText.toList] := by
  have shown : Pool.somewhere (carriesChain oneLine ["203.0.113.5".toList, "198.51.100.2".toList, "192.0.2.7".toList])
      [] (relayedTrace oneLine).1 = true := by decide +kernel
  obtain ⟨out, ⟨attempt⟩, -⟩ := attempt_relays shown
  have appendable : Appendable plainRoute oneLine := by
    refine .inr ⟨by decide +kernel, _, [], rfl, by decide +kernel, rfl⟩
  exact ⟨out, (chain_appended_iff Samples.build Samples.unreloaded Samples.conn plainRoute _ out attempt plain_free).mpr
    appendable⟩

/-- What the second line lists is lost, although neither `Connection` nor the route names the field. -/
theorem chain_truncated :
    ∃ out, Nonempty (Attempts Samples.build Samples.unreloaded Samples.conn plainRoute (Samples.get twoLines) out) ∧
      ¬HopByHop.Nominated twoLines .xForwardedFor ∧
      (∀ entry ∈ entries plainRoute, HeaderName.fromBytes entry.1 ≠ some .xForwardedFor) ∧
      chain out.parts.headers = ["203.0.113.5".toList, "192.0.2.7".toList] ∧
      chain out.parts.headers ≠ chain twoLines ++ [Samples.conn.clientAddr.ip.toText.toList] := by
  have shown : Pool.somewhere (carriesChain twoLines ["203.0.113.5".toList, "192.0.2.7".toList]) []
      (relayedTrace twoLines).1 = true := by decide +kernel
  obtain ⟨out, attempt, carried⟩ := attempt_relays shown
  refine ⟨out, attempt, ?_, plain_free, carried, ?_⟩
  · rintro ⟨line, member, -⟩
    cases member
  · rw [carried]
    decide +kernel

end ForwardedFor
end Torana
