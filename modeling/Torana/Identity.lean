import Torana.Handling
import Torana.Samples

/-!
The identity of a client certificate. Every attempt is stripped of the client's
own `x-client-cert-fingerprint` and carries the verified one; the mirror copy is
built from the client's head as it came, so that it carries whatever the client
sent under that name.
-/
namespace Torana
open Http Proxy
open Config (RouteConfig Build)
open Prog (Runs keeps_event runs_follow)

namespace Identity
open Server Handling

/-- The request that an action sends. -/
def emits : Act → Option (Request UpstreamBody)
  | .sendRequest _ _ out => some out
  | .spawnMirror _ _ out => some out
  | _ => none

def isMirror : Act → Bool
  | .spawnMirror _ _ _ => true
  | _ => false

/-- The values are none, or the one of the connection's verified fingerprint. -/
def Verified (conn : Conn) (values : List HeaderValue) : Prop :=
  values = [] ∨ ∃ fingerprint, conn.clientCertFingerprint = some fingerprint ∧ values = [fingerprint.value]

theorem getAll_setIdentity_self (headers : HeaderMap) (fingerprint : Option Fingerprint) :
    (setIdentity headers fingerprint).getAll .xClientCertFingerprint =
      fingerprint.elim [] fun fingerprint => [fingerprint.value] := by
  cases fingerprint <;> simp [setIdentity]

theorem getAll_setIdentity_ne (headers : HeaderMap) (fingerprint : Option Fingerprint) {name : HeaderName}
    (other : name ≠ .xClientCertFingerprint) : (setIdentity headers fingerprint).getAll name = headers.getAll name := by
  cases fingerprint <;> simp [setIdentity, other]

/-- An attempt carries the verified identity or none. -/
theorem attempt_verified {parseUri : UriParser} {conn : Conn} {route : RouteConfig} {parts : Parts}
    {body : UpstreamBody} {addr : String} {out : Request UpstreamBody}
    (prepared : prepareRequest parseUri (attemptRequest conn route parts body) addr conn.clientAddr
      conn.clientProto = .ok out) :
    Verified conn (out.parts.headers.getAll .xClientCertFingerprint) := by
  rw [getAll_prepareRequest prepared (by decide)]
  split
  · exact .inl rfl
  · rw [attemptRequest, getAll_setIdentity_self]
    cases verified : conn.clientCertFingerprint with
    | none => exact .inl rfl
    | some fingerprint => exact .inr ⟨fingerprint, verified, rfl⟩

/-- What the client's own head carries as identity towards the next hop is verified. -/
def SendsVerified (conn : Conn) (headers : HeaderMap) : Prop :=
  HeaderName.xClientCertFingerprint ∈ connectionOptions headers ∨
    Verified conn (headers.getAll .xClientCertFingerprint)

theorem mirror_verified {parseUri : UriParser} {conn : Conn} {parts : Parts} {body : UpstreamBody} {addr : String}
    {out : Request UpstreamBody}
    (prepared : prepareRequest parseUri (buildRequest parts body) addr conn.clientAddr conn.clientProto = .ok out) :
    Verified conn (out.parts.headers.getAll .xClientCertFingerprint) ↔ SendsVerified conn parts.headers := by
  have endToEnd : HeaderName.xClientCertFingerprint ∉ hopByHopHeaders := by decide
  rw [getAll_prepareRequest prepared (by decide)]
  simp only [endToEnd, false_or, buildRequest, SendsVerified]
  by_cases nominated : HeaderName.xClientCertFingerprint ∈ connectionOptions parts.headers
  · simp [nominated, Verified]
  · simp [nominated]

/-- A request that is sent carries a verified identity or none exactly when it is an
    attempt or the client's own head carries no other. -/
theorem emitted_verified_iff (build : Build) (crates : Crates) (conn : Conn) (req : Request Incoming)
    (trace : History) (q : Program (Response ProxyBody)) (run : Runs (handle build crates conn req) trace q)
    (before after : History) (e : Event Act.Res) (split : trace = before ++ e :: after) (out : Request UpstreamBody)
    (emitted : emits e.act = some out) :
    Verified conn (out.parts.headers.getAll .xClientCertFingerprint) ↔
      isMirror e.act = false ∨ SendsVerified conn req.parts.headers := by
  subst split
  have may := keeps_event handle_keeps run
  cases act : e.act with
  | sendRequest timeout addr sent =>
    rw [act] at may emitted
    cases emitted
    obtain ⟨route, body, _, _, prepared⟩ := may
    exact ⟨fun _ => .inl rfl, fun _ => attempt_verified prepared⟩
  | spawnMirror timeout addr sent =>
    rw [act] at may emitted
    cases emitted
    obtain ⟨route, mirror, _, _, _, prepared⟩ := may
    rw [mirror_verified prepared]
    exact ⟨.inr, fun verified => verified.resolve_left (by simp [isMirror])⟩
  | _ =>
    rw [act] at emitted
    cases emitted

/-! ## A forged identity -/

def forged : HeaderValue := ⟨Text.asBytes "00ff".toList, by decide⟩

/-- `GET /` over plain HTTP with an identity that nothing verified. -/
def forging : Request Incoming := Samples.get (Samples.field .xClientCertFingerprint forged)

def mirroredRoute : RouteConfig :=
  { Samples.route "api" "http://10.0.0.1:80" with mirror := some ⟨"http://10.0.0.9:80", none⟩ }

/-- What `handle` performs for the request, with upstreams that answer. -/
def forgingTrace : History × Program (Response ProxyBody) :=
  Prog.follow (Samples.answers Samples.unreloaded
    (Samples.store (Samples.config [mirroredRoute]) Table.empty))
    (handle Samples.build Samples.unreloaded Samples.conn forging)

theorem forgingTrace_runs :
    Runs (handle Samples.build Samples.unreloaded Samples.conn forging) forgingTrace.1
      forgingTrace.2 := runs_follow _ _

/-- The event sends the forged identity on. -/
def carriesForged (e : Event Act.Res) : Bool :=
  (emits e.act).any fun out => out.parts.headers.getAll .xClientCertFingerprint = [forged]

/-- An attempt of the same request carries no identity. -/
theorem emitted_verified_attempt :
    ∃ before after e out, forgingTrace.1 = before ++ e :: after ∧ emits e.act = some out ∧
      Verified Samples.conn (out.parts.headers.getAll .xClientCertFingerprint) := by
  have sent : forgingTrace.1.any (fun e => !isMirror e.act && (emits e.act).isSome) = true := by decide +kernel
  obtain ⟨e, member, shown⟩ := List.any_eq_true.mp sent
  simp only [Bool.and_eq_true, Bool.not_eq_true', Option.isSome_iff_exists] at shown
  obtain ⟨attempt, out, emitted⟩ := shown
  obtain ⟨before, after, split⟩ := List.append_of_mem member
  exact ⟨before, after, e, out, split, emitted, (emitted_verified_iff _ _ _ _ _ _ forgingTrace_runs before after e
    split out emitted).mpr (.inl attempt)⟩

/-- The mirror copy of a plain HTTP request carries the identity that the client made up. -/
theorem mirror_forged :
    ∃ before after e out, Runs (handle Samples.build Samples.unreloaded Samples.conn forging)
      (before ++ e :: after) forgingTrace.2 ∧ emits e.act = some out ∧
      ¬ Verified Samples.conn (out.parts.headers.getAll .xClientCertFingerprint) := by
  have sent : forgingTrace.1.any carriesForged = true := by decide +kernel
  obtain ⟨e, member, carries⟩ := List.any_eq_true.mp sent
  obtain ⟨out, emitted, same⟩ := (Option.any_eq_true _ _).mp carries
  obtain ⟨before, after, split⟩ := List.append_of_mem member
  refine ⟨before, after, e, out, split ▸ forgingTrace_runs, emitted, fun verified => ?_⟩
  rw [of_decide_eq_true same] at verified
  rcases verified with absent | ⟨fingerprint, named, _⟩
  · cases absent
  · cases named

end Identity
end Torana
