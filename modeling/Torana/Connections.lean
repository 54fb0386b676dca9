import Torana.Boundary
import Torana.Launch

/-!
From the configuration of a listener to what an upstream is told: the task of one accepted
connection (`run_listener` and `run_acme_listener`), and what is true of every attempt of
a request that comes over it.

What rustls promises of a completed handshake is a condition on its answers
(`Handshake`); nothing else is assumed of it.
-/
namespace Torana
open Http Proxy Tls Launch
open Server (Conn)
open Prog (Runs Keeps)

namespace Connections

/-! ## The task of a connection -/

/-- What a completed handshake tells about the client. -/
structure Session where
  peerCertificates : Option (List CertificateDer)
  alpnProtocol : Option (List UInt8)

inductive Task where
  /-- `TlsAcceptor::accept` and `StartHandshake::into_stream`. -/
  | handshake (config : ServerConfig)
  /-- `AcmeAcceptor::accept`: false where the connection was a validation. -/
  | acmeAccept
  | serveConnection (conn : Conn) (useH2 : Bool)
  | debug (message : String)

@[reducible] def Task.Res : Task → Type
  | .handshake _ => Except String Session
  | .acmeAccept => Except String Bool
  | _ => Unit

abbrev TaskProgram (α : Type) := Prog Task Task.Res α
abbrev TaskHistory := List (Event Task.Res)
abbrev task (a : Task) : TaskProgram a.Res := Prog.call a

def useH2 (session : Session) : Bool := session.alpnProtocol = some h2

section
variable (rustls : Rustls) (peer : Net.SocketAddr)

/-- The fingerprint of the certificate that the client showed, if it showed one. -/
def fingerprint (session : Session) : Option Server.Fingerprint :=
  (session.peerCertificates.bind List.head?).map (certFingerprint rustls)

/-- What `run_listener` spawns for a connection. -/
def listenerTask : Option ServerConfig → TaskProgram Unit
  | some config => do
    match ← task (.handshake config) with
    | .ok session => task (.serveConnection ⟨peer, .https, fingerprint rustls session⟩ (useH2 session))
    | .error e => task (.debug s!"TLS handshake failed: {e}")
  | none => task (.serveConnection ⟨peer, .http, none⟩ false)

/-- What `run_acme_listener` spawns for a connection, with `acme::accept`. -/
def acmeTask (config : ServerConfig) : TaskProgram Unit := do
  match ← task .acmeAccept with
  | .error e => task (.debug s!"ACME TLS handshake failed: {e}")
  | .ok false => return ()
  | .ok true =>
    match ← task (.handshake config) with
    | .ok session => task (.serveConnection ⟨peer, .https, none⟩ (useH2 session))
    | .error _ => task (.debug "ACME TLS handshake failed: completing ACME-managed TLS handshake")

def connectionTask : Mode → TaskProgram Unit
  | .plain => listenerTask rustls peer none
  | .tls config => listenerTask rustls peer (some config)
  | .acme config => acmeTask peer config

end

/-! ## Handshakes -/

/-- What rustls promises of a completed handshake: nobody shows a certificate unasked, and
    where clients are asked for one, they have shown a chain that was verified against the
    roots. -/
structure Handshake (verifies : List CertificateDer → List CertificateDer → Prop) (config : ServerConfig)
    (session : Session) : Prop where
  unasked : config.clientAuth = none → session.peerCertificates = none
  asked : ∀ roots, config.clientAuth = some roots →
    ∃ leaf chain, session.peerCertificates = some (leaf :: chain) ∧ verifies roots.list (leaf :: chain)

def Honest (verifies : List CertificateDer → List CertificateDer → Prop) : Event Task.Res → Prop
  | ⟨.handshake config, .ok session⟩ => Handshake verifies config session
  | _ => True

/-- A loop of the given mode may serve this connection: its task has got so far, over
    honest handshakes. -/
def Served (rustls : Rustls) (verifies : List CertificateDer → List CertificateDer → Prop) (mode : Mode) (conn : Conn)
    (h2 : Bool) : Prop :=
  ∃ trace next, Runs (connectionTask rustls conn.clientAddr mode) trace (.act (.serveConnection conn h2) next) ∧
    ∀ e ∈ trace, Honest verifies e

/-! ## What a connection is, by its listener -/

/-- What the configuration of a listener says about its connections: their protocol; that
    only TLS speaks HTTP/2; and that an identity is there exactly where client
    certificates are required, namely that of a certificate which leads to the roots in
    the file that the listener names. -/
structure Attested (rustls : Rustls) (verifies : List CertificateDer → List CertificateDer → Prop) (past : BootHistory)
    (l : ListenerConfig) (conn : Conn) (h2 : Bool) : Prop where
  proto : conn.clientProto.text = l.protocol
  secure : h2 = true → l.protocol = "https"
  anonymous : l.tlsClientCa = none → conn.clientCertFingerprint = none
  identified : ∀ path, l.tlsClientCa = some path → ∃ roots leaf chain, CertsIn rustls past path roots ∧
    verifies roots.list (leaf :: chain) ∧ conn.clientCertFingerprint = some (certFingerprint rustls leaf)

/-- What a connection is, by the mode of its loop and the handshake that it completed. -/
def ConnectedAs (rustls : Rustls) (past : TaskHistory) (conn : Conn) (h2 : Bool) : Mode → Prop
  | .plain => conn = ⟨conn.clientAddr, .http, none⟩ ∧ h2 = false
  | .tls config => ∃ session, ⟨.handshake config, .ok session⟩ ∈ past ∧
    conn = ⟨conn.clientAddr, .https, fingerprint rustls session⟩ ∧ h2 = useH2 session
  | .acme config => ∃ session, ⟨.handshake config, .ok session⟩ ∈ past ∧ conn = ⟨conn.clientAddr, .https, none⟩ ∧
    h2 = useH2 session

/-- What the task of a connection may perform. -/
def May (rustls : Rustls) (peer : Net.SocketAddr) (mode : Mode) (past : TaskHistory) : Task → Prop
  | .handshake config => mode = .tls config ∨ mode = .acme config
  | .acmeAccept => past = []
  | .serveConnection conn h2 => conn.clientAddr = peer ∧ ConnectedAs rustls past conn h2 mode
  | .debug _ => True

theorem connectionTask_keeps (rustls : Rustls) (peer : Net.SocketAddr) (mode : Mode) :
    Keeps (May rustls peer mode) (fun _ _ => True) [] (connectionTask rustls peer mode) := by
  cases mode with
  | plain => exact ⟨⟨rfl, rfl, rfl⟩, fun _ => trivial⟩
  | tls config =>
    refine ⟨.inl rfl, fun r => ?_⟩
    cases r with
    | error e => exact ⟨trivial, fun _ => trivial⟩
    | ok session => exact ⟨⟨rfl, session, by simp, rfl, rfl⟩, fun _ => trivial⟩
  | acme config =>
    refine ⟨rfl, fun r => ?_⟩
    match r with
    | .error e => exact ⟨trivial, fun _ => trivial⟩
    | .ok false => trivial
    | .ok true =>
      refine ⟨.inr rfl, fun r => ?_⟩
      cases r with
      | error e => exact ⟨trivial, fun _ => trivial⟩
      | ok session => exact ⟨⟨rfl, session, by simp, rfl, rfl⟩, fun _ => trivial⟩

section
variable {rustls : Rustls} {verifies : List CertificateDer → List CertificateDer → Prop} {past : BootHistory}
  {l : ListenerConfig} {conn : Conn} {h2 : Bool}

theorem served_connected {mode : Mode} (served : Served rustls verifies mode conn h2) :
    ∃ trace, ConnectedAs rustls trace conn h2 mode ∧ ∀ e ∈ trace, Honest verifies e := by
  obtain ⟨trace, next, run, honest⟩ := served
  have may := (Prog.keeps_runs (connectionTask_keeps rustls conn.clientAddr mode) run).1
  exact ⟨trace, may.2, honest⟩

/-- Whoever is served by the loop of a listener is attested by it. -/
theorem served_attested {loop : Nat × Mode} (serves : Serves rustls past l loop)
    (served : Served rustls verifies loop.2 conn h2) : Attested rustls verifies past l conn h2 := by
  obtain ⟨-, as⟩ := serves
  obtain ⟨trace, connected, honest⟩ := served_connected served
  cases mode : loop.2 with
  | plain =>
    rw [mode] at as connected
    obtain ⟨http, -, open_⟩ := as
    obtain ⟨same, rfl⟩ := connected
    rw [same]
    exact ⟨http.symm, (nomatch ·), fun _ => rfl, fun path asks => by simp [open_] at asks⟩
  | tls config =>
    rw [mode] at as connected
    obtain ⟨https, -, secured⟩ := as
    obtain ⟨session, shook, same, -⟩ := connected
    have promise : Handshake verifies config session := honest _ shook
    rw [same]
    refine ⟨https.symm, fun _ => https, fun open_ => ?_, fun path asks => ?_⟩
    · simp only [fingerprint, promise.unasked (secured.unasked open_), Option.bind_none, Option.map_none]
    · obtain ⟨roots, required, read⟩ := secured.asked path asks
      obtain ⟨leaf, chain, shown, verified⟩ := promise.asked roots required
      exact ⟨roots, leaf, chain, read, verified, by simp [fingerprint, shown]⟩
  | acme config =>
    rw [mode] at as connected
    obtain ⟨https, open_, -⟩ := as
    obtain ⟨session, -, same, -⟩ := connected
    rw [same]
    exact ⟨https.symm, fun _ => https, fun _ => rfl, fun path asks => by simp [open_] at asks⟩

end

/-! ## What the values read as -/

theorem proto_bytes (proto : ClientProto) : proto.value.bytes = Text.asBytes proto.text.toList :=
  Boundary.fromStr_bytes (by simp [ClientProto.value])

/-- An upstream reads the digest back. -/
theorem fingerprint_reads (rustls : Rustls) (leaf : CertificateDer) :
    ∃ text, (certFingerprint rustls leaf).value.toStr = some text ∧ Hex.decode text.toList = rustls.sha256 leaf := by
  obtain ⟨v, made, reads⟩ := fromStr_visible (Server.fingerprint_visible (certFingerprint rustls leaf))
  have same : (certFingerprint rustls leaf).value = v := by simp [Server.Fingerprint.value, made]
  refine ⟨_, same ▸ reads, ?_⟩
  rw [certFingerprint, String.toList_ofList, writeBytes_eq, Hex.decode_encode]

/-! ## From the listener to the upstream -/

/-- A loop that was spawned is that of a listener of the accepted config. -/
theorem spawned_serves {build : Config.Build} {lib : Libraries} {configPath : String} {boot : BootHistory}
    {q : BootProgram (Except Chain Unit)} (launched : Runs (main build lib configPath) boot q) {loop : Nat × Mode}
    (member : loop ∈ spawned boot) :
    ∃ config l, Accepted build lib configPath boot config ∧ l ∈ config.listener ∧ Serves lib.rustls boot l loop := by
  obtain ⟨e, performed, spawns⟩ := List.mem_filterMap.mp member
  obtain ⟨before, after, split⟩ := List.append_of_mem performed
  have may := Prog.keeps_event main_gives (split ▸ launched)
  have next : ∃ config l, Next build lib configPath before config l ∧ Serves lib.rustls before l loop := by
    cases act : e.act with
    | spawnListener socket acceptor =>
      rw [act] at may spawns
      cases acceptor <;> cases spawns <;> exact may
    | spawnAcmeListener socket config =>
      rw [act] at may spawns
      cases spawns
      exact may
    | _ =>
      rw [act] at spawns
      cases spawns
  obtain ⟨config, l, ⟨accepted, done, rest, listed, -⟩, serves⟩ := next
  rw [split]
  exact ⟨config, l, accepted_append _ accepted, by simp [listed], serves_append _ serves⟩

/-- What an attempt says about the client: nothing where the listener requires no client
    certificates; where it does, nothing or the digest of a certificate that leads to the
    roots in the listener's file. -/
structure Told (rustls : Rustls) (verifies : List CertificateDer → List CertificateDer → Prop) (past : BootHistory)
    (l : ListenerConfig) (values : List HeaderValue) : Prop where
  anonymous : l.tlsClientCa = none → values = []
  identified : ∀ path, l.tlsClientCa = some path → values = [] ∨ ∃ value roots leaf chain text, values = [value] ∧
    CertsIn rustls past path roots ∧ verifies roots.list (leaf :: chain) ∧ value.toStr = some text ∧
    Hex.decode text.toList = rustls.sha256 leaf

theorem attested_told {rustls : Rustls} {verifies : List CertificateDer → List CertificateDer → Prop}
    {past : BootHistory} {l : ListenerConfig} {conn : Conn} {h2 : Bool} {values : List HeaderValue}
    (attested : Attested rustls verifies past l conn h2) (verified : Identity.Verified conn values) :
    Told rustls verifies past l values := by
  rcases verified with silent | ⟨shown, known, alone⟩
  · exact ⟨fun _ => silent, fun _ _ => .inl silent⟩
  · refine ⟨fun open_ => ?_, fun path asks => .inr ?_⟩
    · rw [attested.anonymous open_] at known
      cases known
    · obtain ⟨roots, leaf, chain, read, verified, same⟩ := attested.identified path asks
      obtain ⟨text, reads, digest⟩ := fingerprint_reads rustls leaf
      rw [same] at known
      cases known
      exact ⟨_, roots, leaf, chain, text, alone, read, verified, reads, digest⟩

/-- In every run of the proxy behind the accept loops of a process, each connection at its
    own loop: the loop is that of a listener of the accepted config, whatever is sent for a
    request says by which protocol it came, as that listener has it, and an attempt says no
    more about the client than that listener lets it. -/
theorem sent_attested (build : Config.Build) (lib : Libraries) (configPath : String) (started : BootHistory)
    (q : BootProgram (Except Chain Unit)) (launched : Runs (main build lib configPath) started q)
    (verifies : List CertificateDer → List CertificateDer → Prop) (sys : System) (s : Store) (w : System.World)
    (reaches : sys.Reaches (fun _ _ => True) s w) (loopOf : Nat → Nat × Mode)
    (served : ∀ n, loopOf n ∈ spawned started ∧ ∃ h2, Served lib.rustls verifies (loopOf n).2 (sys.conn n) h2)
    (n : Nat) (e : Event Act.Res) (member : (Tid.request n, e) ∈ w.log) (out : Request UpstreamBody)
    (emitted : Identity.emits e.act = some out) :
    (∃ config l, Accepted build lib configPath started config ∧ l ∈ config.listener ∧
      Serves lib.rustls started l (loopOf n)) ∧
    ∀ l, Serves lib.rustls started l (loopOf n) →
      (∃ value, out.parts.headers.getAll .xForwardedProto = [value] ∧
        value.bytes = Text.asBytes l.protocol.toList) ∧
      (Identity.isMirror e.act = false →
        Told lib.rustls verifies started l (out.parts.headers.getAll .xClientCertFingerprint)) := by
  obtain ⟨spawned, h2, connection⟩ := served n
  refine ⟨spawned_serves launched spawned, fun l serves => ?_⟩
  have attested := served_attested serves connection
  obtain ⟨before, after, logged⟩ := List.append_of_mem member
  obtain ⟨-, -, -, -, -, -, -, -, -, may⟩ := System.request_event reaches logged
  have proto : ∀ {req : Request UpstreamBody} {upstream : String}, Proxy.prepareRequest sys.crates.parseUri req upstream
      (sys.conn n).clientAddr (sys.conn n).clientProto = .ok out → ∃ value,
        out.parts.headers.getAll .xForwardedProto = [value] ∧ value.bytes = Text.asBytes l.protocol.toList := by
    intro req upstream prepared
    exact ⟨_, (Boundary.prepared_bounded prepared).proto, attested.proto ▸ proto_bytes _⟩
  cases act : e.act with
  | sendRequest timeout addr given =>
    rw [act] at may emitted
    cases emitted
    obtain ⟨route, body, _, _, prepared⟩ := may
    exact ⟨proto prepared, fun _ => attested_told attested (Identity.attempt_verified prepared)⟩
  | spawnMirror timeout addr given =>
    rw [act] at may emitted
    cases emitted
    obtain ⟨route, mirror, _, _, _, prepared⟩ := may
    exact ⟨proto prepared, (nomatch ·)⟩
  | _ =>
    rw [act] at emitted
    cases emitted

/-! ## A client with a certificate -/

/-- The configuration of the listener that requires certificates. -/
def requiring : ServerConfig :=
  ⟨.single ⟨[der], by decide⟩ der, some ⟨[der], by decide⟩, offered⟩

/-- The last certificate of the chain is a root. -/
def endsAtRoot (roots chain : List CertificateDer) : Prop := ∃ root ∈ roots, chain.getLast? = some root

/-- A client that shows the root itself, and speaks HTTP/2. -/
def session : Session := ⟨some [der], some h2⟩

theorem session_honest : Handshake endsAtRoot requiring session := by
  refine ⟨(nomatch ·), ?_⟩
  rintro roots ⟨⟩
  exact ⟨der, [], rfl, der, by simp, rfl⟩

def certifiedSystem : System where
  build := Samples.build
  crates := Samples.unreloaded
  configPath := "torana.toml"
  reloads := 0
  rounds _ := 0
  conn _ := ⟨Samples.conn.clientAddr, .https, some (certFingerprint rustls der)⟩
  req _ := Samples.get Multimap.empty

theorem certified_served (n : Nat) :
    Served rustls endsAtRoot (.tls requiring) (certifiedSystem.conn n) true := by
  refine ⟨[⟨.handshake requiring, .ok session⟩], .ret, ?_, fun e member => ?_⟩
  · exact Prog.runs_cons.mpr (.nil _)
  · rw [List.mem_singleton.mp member]
    exact session_honest

theorem sent_attested_certified :
    ∃ w e out config l started, certifiedSystem.Reaches (fun _ _ => True)
      (Samples.store (Samples.config [Samples.route "api" "http://10.0.0.1:80"]) Table.empty) w ∧
      (Tid.request 0, e) ∈ w.log ∧ Identity.emits e.act = some out ∧
      Accepted Samples.build libraries "torana.toml" started config ∧ l ∈ config.listener ∧
      Serves libraries.rustls started l (443, .tls requiring) ∧
      Told rustls endsAtRoot started l (out.parts.headers.getAll .xClientCertFingerprint) := by
  have launched := Prog.runs_follow favourable (main Samples.build libraries "torana.toml")
  have there : (443, .tls requiring) ∈
      spawned (Prog.follow favourable (main Samples.build libraries "torana.toml")).1 := by decide +kernel
  obtain ⟨w, reaches, sent⟩ := System.reaches_of_run certifiedSystem (fun _ _ => true)
    (List.replicate 6 (.request 0, Samples.outside))
    (Samples.store (Samples.config [Samples.route "api" "http://10.0.0.1:80"]) Table.empty)
    (fun w => w.log.any fun e => e.1 = .request 0 && !Identity.isMirror e.2.act && (Identity.emits e.2.act).isSome)
    (by decide +kernel)
  have reaches := Pool.reaches_mono (fun _ _ _ => trivial) reaches
  obtain ⟨⟨t, e⟩, member, shown⟩ := List.any_eq_true.mp sent
  simp only [Bool.and_eq_true, decide_eq_true_eq, Bool.not_eq_true', Option.isSome_iff_exists] at shown
  obtain ⟨⟨rfl, attempt⟩, out, emitted⟩ := shown
  obtain ⟨⟨config, l, accepted, listed, serves⟩, attested⟩ := sent_attested _ _ _ _ _ launched endsAtRoot
    certifiedSystem _ w reaches (fun _ => (443, .tls requiring)) (fun n => ⟨there, true, certified_served n⟩) 0 e member
    out emitted
  exact ⟨w, e, out, config, l, _, reaches, member, emitted, accepted, listed, serves, (attested l serves).2 attempt⟩

end Connections
end Torana
