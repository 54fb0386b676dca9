import Torana.ForwardedFor

/-!
Several of these proxies in a row, each the client of the next one. Only the first of them
is told by the client which fields end with the connection: behind it there is no such
field left, so that the others keep everything they were given and add their own.
-/
namespace Torana
open Http Proxy
open Config (RouteConfig Build)
open Prog (keeps_event)

namespace Relays
open Server Handling Overrides ForwardedFor

/-! ## Proxies in a row -/

/-- One of the proxies, with the route that a request takes through it and the connection
    that the request comes by. -/
structure Hop where
  build : Build
  crates : Crates
  conn : Conn
  route : RouteConfig

def Hop.clientAddress (hop : Hop) : List Char := hop.conn.clientAddr.ip.toText.toList

/-- The route overrides the field. -/
def Hop.overrides (hop : Hop) (name : HeaderName) : Prop :=
  ∃ entry ∈ entries hop.route, HeaderName.fromBytes entry.1 = some name

/-- An attempt of some request with these fields carries those. -/
def Sends (hop : Hop) (headers sent : HeaderMap) : Prop :=
  ∃ req out, req.parts.headers = headers ∧ out.parts.headers = sent ∧
    Nonempty (Attempts hop.build hop.crates hop.conn hop.route req out)

/-- What leaves the last proxy when this comes to the first one. -/
inductive Relayed : List Hop → HeaderMap → HeaderMap → Prop where
  | arrived (headers : HeaderMap) : Relayed [] headers headers
  | hop {hop : Hop} {rest : List Hop} {headers between sent : HeaderMap} (first : Sends hop headers between)
      (later : Relayed rest between sent) : Relayed (hop :: rest) headers sent

/-- A head as every proxy leaves it: no field of the connection, and one line of addresses. -/
structure Clean (headers : HeaderMap) : Prop where
  connection : headers.getAll .connection = []
  addresses : ∃ value text, headers.getAll .xForwardedFor = [value] ∧ value.toStr = some text

section
variable {hop : Hop} {headers sent : HeaderMap}

theorem not_overridden {name : HeaderName} (free : ¬ hop.overrides name) :
    (overriddenHeaders hop.route headers).getAll name = headers.getAll name := by
  rw [overriddenHeaders_eq]
  exact getAll_overrides_ne _ _ fun entry member named => free ⟨entry, member, named⟩

theorem sends_clean (sends : Sends hop headers sent) : Clean sent := by
  obtain ⟨req, out, -, rfl, ⟨attempt⟩⟩ := sends
  obtain ⟨body, addr, prepared⟩ := attempts_prepared attempt
  refine ⟨?_, ?_⟩
  · have listed : HeaderName.connection ∈ hopByHopHeaders := by decide
    rw [getAll_attempt prepared (by decide), if_pos (.inl listed)]
  · obtain ⟨_, _, _, _, _, _, rfl⟩ := prepareRequest_ok prepared
    obtain ⟨value, -, reads, alone⟩ := Boundary.getAll_chain _ hop.conn.clientAddr hop.conn.clientProto
    exact ⟨value, _, alone, reads⟩

/-- Behind a proxy nothing is nominated, unless a route says so itself. -/
theorem clean_options (clean : Clean headers) (free : ¬ hop.overrides .connection) :
    connectionOptions (overriddenHeaders hop.route headers) = [] := by
  rw [connectionOptions, not_overridden free, clean.connection]
  rfl

theorem clean_appendable (clean : Clean headers) (free : ¬ hop.overrides .connection) :
    Appendable hop.route headers := by
  obtain ⟨value, text, alone, reads⟩ := clean.addresses
  refine .inr ⟨?_, value, [], alone, by simp [reads], rfl⟩
  rw [clean_options clean free]
  exact List.not_mem_nil

theorem sends_chain_iff (sends : Sends hop headers sent) (free : ¬ hop.overrides .xForwardedFor) :
    chain sent = chain headers ++ [hop.clientAddress] ↔ Appendable hop.route headers := by
  obtain ⟨req, out, rfl, rfl, ⟨attempt⟩⟩ := sends
  obtain ⟨body, addr, prepared⟩ := attempts_prepared attempt
  rw [attempt_chain prepared fun entry member named => free ⟨entry, member, named⟩, Hop.clientAddress,
    List.append_cancel_right_eq]
  exact kept_chain_iff

/-- What one proxy makes of a field that it has no own value for. -/
theorem sends_field (sends : Sends hop headers sent) {name : HeaderName} (free : ¬ reserved name)
    (apart : ¬ hop.overrides name) :
    sent.getAll name =
      if name ∈ connectionOptions (overriddenHeaders hop.route headers) then [] else headers.getAll name := by
  obtain ⟨req, out, rfl, rfl, ⟨attempt⟩⟩ := sends
  obtain ⟨body, addr, prepared⟩ := attempts_prepared attempt
  simp only [reserved, not_or] at free
  rw [getAll_attempt prepared free.2.1, Identity.getAll_setIdentity_ne _ _ free.2.2, not_overridden apart]
  simp only [free.1, false_or]

theorem sends_proto (sends : Sends hop headers sent) : sent.getAll .xForwardedProto = [hop.conn.clientProto.value] := by
  obtain ⟨req, out, -, rfl, ⟨attempt⟩⟩ := sends
  obtain ⟨body, addr, prepared⟩ := attempts_prepared attempt
  exact (Boundary.prepared_bounded prepared).proto

/-- The identity that a proxy sends is its own client's, and it is there when nothing is nominated. -/
theorem sends_identity (sends : Sends hop headers sent) (clean : Clean headers) (free : ¬ hop.overrides .connection) :
    sent.getAll .xClientCertFingerprint = hop.conn.clientCertFingerprint.elim [] fun print => [print.value] := by
  have options := clean_options clean free
  obtain ⟨req, out, rfl, rfl, ⟨attempt⟩⟩ := sends
  obtain ⟨body, addr, prepared⟩ := attempts_prepared attempt
  have listed : HeaderName.xClientCertFingerprint ∉ hopByHopHeaders := by decide
  rw [getAll_attempt prepared (by decide), options]
  simp only [listed, List.not_mem_nil, or_self, if_false]
  exact Identity.getAll_setIdentity_self _ _

end

/-! ## All of them -/

section
variable {first : Hop} {rest : List Hop} {headers sent : HeaderMap}

/-- Behind the first proxy every other one puts the address of its client to the chain. -/
theorem relayed_chain (clean : Clean headers) (relayed : Relayed rest headers sent)
    (plain : ∀ hop ∈ rest, ¬ hop.overrides .connection ∧ ¬ hop.overrides .xForwardedFor) :
    chain sent = chain headers ++ rest.map Hop.clientAddress := by
  induction relayed with
  | arrived headers => rw [List.map_nil, List.append_nil]
  | @hop hop rest headers between sent sends later ih =>
    obtain ⟨connection, addresses⟩ := plain hop List.mem_cons_self
    have appended := (sends_chain_iff sends addresses).mpr (clean_appendable clean connection)
    rw [ih (sends_clean sends) fun hop member => plain hop (List.mem_cons_of_mem _ member), appended, List.map_cons,
      List.append_assoc, List.singleton_append]

/-- Behind the first proxy every other one leaves the fields that no proxy sets. -/
theorem relayed_field (clean : Clean headers) (relayed : Relayed rest headers sent)
    (plain : ∀ hop ∈ rest, ¬ hop.overrides .connection) {name : HeaderName} (free : ¬ reserved name)
    (apart : ∀ hop ∈ rest, ¬ hop.overrides name) : sent.getAll name = headers.getAll name := by
  induction relayed with
  | arrived headers => rfl
  | @hop hop rest headers between sent sends later ih =>
    rw [ih (sends_clean sends) (fun hop member => plain hop (List.mem_cons_of_mem _ member))
        (fun hop member => apart hop (List.mem_cons_of_mem _ member)),
      sends_field sends free (apart hop List.mem_cons_self), clean_options clean (plain hop List.mem_cons_self),
      if_neg List.not_mem_nil]

/-- The last proxy names the protocol of its own client, and behind another proxy its own client's identity. -/
theorem relayed_last (relayed : Relayed (first :: rest) headers sent) :
    sent.getAll .xForwardedProto = [((first :: rest).getLast (List.cons_ne_nil _ _)).conn.clientProto.value] ∧
      (Clean headers → (∀ hop ∈ first :: rest, ¬ hop.overrides .connection) →
        sent.getAll .xClientCertFingerprint =
          ((first :: rest).getLast (List.cons_ne_nil _ _)).conn.clientCertFingerprint.elim [] fun print =>
            [print.value]) := by
  induction rest generalizing first headers with
  | nil =>
    obtain _ | ⟨sends, ⟨⟩⟩ := relayed
    exact ⟨sends_proto sends, fun clean plain => sends_identity sends clean (plain first List.mem_cons_self)⟩
  | cons second rest ih =>
    obtain _ | ⟨sends, later⟩ := relayed
    obtain ⟨proto, identity⟩ := ih later
    rw [List.getLast_cons (List.cons_ne_nil _ _)]
    exact ⟨proto, fun _ plain => identity (sends_clean sends) fun hop member =>
      plain hop (List.mem_cons_of_mem _ member)⟩

/-- What proxies in a row make of the head of a client's request. -/
structure EndToEnd (first : Hop) (rest : List Hop) (headers sent : HeaderMap) : Prop where
  -- the whole chain arrives exactly when the first proxy keeps it
  addresses : chain sent = chain headers ++ (first :: rest).map Hop.clientAddress ↔ Appendable first.route headers
  -- a field is lost only where the client, or the first route, has nominated it
  fields : ∀ name, ¬ reserved name → (∀ hop ∈ first :: rest, ¬ hop.overrides name) →
    sent.getAll name =
      if name ∈ connectionOptions (overriddenHeaders first.route headers) then [] else headers.getAll name
  proto : sent.getAll .xForwardedProto = [((first :: rest).getLast (List.cons_ne_nil _ _)).conn.clientProto.value]
  -- whatever the client and the proxies before claim
  identity : rest ≠ [] → sent.getAll .xClientCertFingerprint =
    ((first :: rest).getLast (List.cons_ne_nil _ _)).conn.clientCertFingerprint.elim [] fun print => [print.value]

/-- However many proxies are in a row, whatever their routes, connections and attempts: no
    proxy but the first ever drops a field or an address that the client sent, if none of
    their routes overrides the fields of the connection and the chain. -/
theorem relayed_end_to_end (first : Hop) (rest : List Hop) (headers sent : HeaderMap)
    (relayed : Relayed (first :: rest) headers sent) (chained : ∀ hop ∈ first :: rest, ¬ hop.overrides .xForwardedFor)
    (plain : ∀ hop ∈ rest, ¬ hop.overrides .connection) : EndToEnd first rest headers sent := by
  obtain ⟨proto, -⟩ := relayed_last relayed
  obtain _ | ⟨sends, later⟩ := relayed
  have clean := sends_clean sends
  refine ⟨?_, fun name free apart => ?_, proto, fun more => ?_⟩
  · rw [relayed_chain clean later fun hop member => ⟨plain hop member, chained hop (List.mem_cons_of_mem _ member)⟩,
      List.map_cons, ← List.singleton_append, ← List.append_assoc, List.append_cancel_right_eq]
    exact sends_chain_iff sends (chained first List.mem_cons_self)
  · rw [relayed_field clean later plain free fun hop member => apart hop (List.mem_cons_of_mem _ member)]
    exact sends_field sends free (apart first List.mem_cons_self)
  · cases rest with
    | nil => exact absurd rfl more
    | cons second rest =>
      rw [List.getLast_cons (List.cons_ne_nil _ _)]
      exact (relayed_last later).2 clean plain

end

/-! ## Two proxies -/

def plainHop : Hop := ⟨Samples.build, Samples.unreloaded, Samples.conn, plainRoute⟩

/-- What the proxy first sends for these fields. -/
def firstSent (headers : HeaderMap) : Option (Request UpstreamBody) := (relayedTrace headers).1.findSome? attemptOf

def sentFor (headers : HeaderMap) : HeaderMap := (firstSent headers).elim Multimap.empty (·.parts.headers)

theorem sentFor_sends {headers : HeaderMap} (found : (firstSent headers).isSome = true)
    (choice : selected (Samples.get headers) (relayedTrace headers).1 = some plainRoute) :
    Sends plainHop headers (sentFor headers) := by
  obtain ⟨out, found⟩ := Option.isSome_iff_exists.mp found
  obtain ⟨before, event, after, split, sent, -⟩ := List.findSome?_eq_some_iff.mp found
  have run : Prog.Runs (handle Samples.build Samples.unreloaded Samples.conn (Samples.get headers))
      (before ++ event :: after) (relayedTrace headers).2 := split ▸ Prog.runs_follow _ _
  have may := keeps_event handle_keeps run
  refine ⟨Samples.get headers, out, rfl, by rw [sentFor, found]; rfl, ⟨⟨before, event, after, _, run, sent, ?_⟩⟩⟩
  unfold attemptOf at sent
  split at sent
  · rename_i timeout addr out' act
    rw [act] at may
    obtain ⟨served, _, serving, _, _⟩ := may
    have later : selected (Samples.get headers) (relayedTrace headers).1 = some served := by
      rw [split]
      exact selected_append _ serving.1
    cases later.symm.trans choice
    exact serving.1
  · cases sent

theorem plain_unnamed (name : HeaderName) : ¬ plainHop.overrides name := by
  rintro ⟨entry, absent, -⟩
  cases absent

/-- The chain of a client's line behind two proxies. -/
theorem relayed_end_to_end_twice :
    Relayed [plainHop, plainHop] oneLine (sentFor (sentFor oneLine)) ∧
      EndToEnd plainHop [plainHop] oneLine (sentFor (sentFor oneLine)) ∧
      chain (sentFor (sentFor oneLine)) =
        ["203.0.113.5".toList, "198.51.100.2".toList, "192.0.2.7".toList, "192.0.2.7".toList] := by
  have first : Sends plainHop oneLine (sentFor oneLine) := sentFor_sends (by decide +kernel) (by decide +kernel)
  have second : Sends plainHop (sentFor oneLine) (sentFor (sentFor oneLine)) :=
    sentFor_sends (by decide +kernel) (by decide +kernel)
  have relayed := Relayed.hop first (.hop second (.arrived _))
  refine ⟨relayed, ?_, by decide +kernel⟩
  refine relayed_end_to_end plainHop [plainHop] oneLine _ relayed (fun hop member => ?_) fun hop member => ?_
  · rw [List.mem_cons, List.mem_singleton, or_self] at member
    subst member
    exact plain_unnamed _
  · obtain rfl := List.mem_singleton.mp member
    exact plain_unnamed _

end Relays
end Torana
