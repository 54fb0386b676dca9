import Mathlib.Data.List.Forall2
import Mathlib.Data.List.ReduceOption
import Torana.Samples
import Torana.Tls

/-!
How the process starts: `main`, and `Server::run` up to the point where it is ready. What
follows, the wait for a signal and the drain, is the subject of another module.

`May` says what may be performed after what; its conditions speak of the configuration
that was read and accepted, of the listeners that are served already, and of the files
that were read for the next one.
-/
namespace Torana
open Config (Build RouteConfig)
open Tls
open Prog (Runs Keeps keeps_bind keeps_call_bind keeps_mono)

namespace Launch

/-! ## The whole configuration -/

structure GlobalConfig where
  logFormat : Option String
  logLevel : Option String
  metricsAddr : Option String

structure AutoTlsConfig where
  domains : List String
  contactEmails : Option (List String)
  cacheDir : Option String
  directoryUrl : Option String
  staging : Option Bool
  caCert : Option String

structure ListenerConfig where
  addr : String
  protocol : String
  tlsCert : Option String
  tlsKey : Option String
  tlsClientCa : Option String
  acme : Option AutoTlsConfig

structure FullConfig where
  global : GlobalConfig
  listener : List ListenerConfig
  route : List RouteConfig

def AutoTlsConfig.cacheDirOr (acme : AutoTlsConfig) : String := acme.cacheDir.getD "./acme-cache"

/-- What `validate` and the engine read of it. -/
def AutoTlsConfig.core (acme : AutoTlsConfig) : Config.AutoTlsConfig := ⟨acme.domains, acme.directoryUrl⟩

def ListenerConfig.core (l : ListenerConfig) : Config.ListenerConfig :=
  ⟨l.addr, l.protocol, l.tlsCert, l.tlsKey, l.tlsClientCa, l.acme.map AutoTlsConfig.core⟩

def FullConfig.core (config : FullConfig) : Config := ⟨config.listener.map ListenerConfig.core, config.route⟩

/-- The files that a listener names. -/
def ListenerConfig.files (l : ListenerConfig) : List String :=
  [l.tlsCert, l.tlsKey, l.tlsClientCa, l.acme.bind AutoTlsConfig.caCert].reduceOption

/-! ## Starting -/

/-- The crates of the process, of which the toml crate reads the whole configuration. -/
structure Libraries where
  parseUri : Proxy.UriParser
  parseToml : String → Except String FullConfig
  wasm : Plugins.Wasmtime
  rustls : Rustls

/-- The same crates as the engine has them. -/
def Libraries.crates (lib : Libraries) : Crates where
  parseUri := lib.parseUri
  parseToml content := (lib.parseToml content).map FullConfig.core
  wasm := lib.wasm

section
variable (build : Build) (lib : Libraries)

def loadConfig (path : String) : BootProgram (Except Chain FullConfig) := do
  return chained [] (Config.loaded lib.parseToml path (← boot (.readToString path)))

/-- A reload that reads the same text gets what the engine has of it. -/
theorem loaded_core (path : String) (text : Except String String) :
    Config.loaded lib.crates.parseToml path text = (Config.loaded lib.parseToml path text).map FullConfig.core := by
  cases text <;> rfl

def initLoggingFromConfig (config : FullConfig) : BootProgram Unit :=
  boot (.initLogging (config.global.logFormat.getD "json") (config.global.logLevel.getD "info"))

def initMetrics : BootProgram (Except Chain Unit) := do
  return chained [] (← boot .initMetrics)

/-- `Display` of a socket address; the scope of one of version 6 is not kept. -/
def displayAddr (addr : Net.SocketAddr) : String :=
  match addr.ip with
  | .v4 _ _ _ _ => s!"{addr.ip.toText}:{addr.port}"
  | .v6 _ => s!"[{addr.ip.toText}]:{addr.port}"

/-- `expect`, which panics where there is nothing. -/
def expect (message : String) : Option String → BootProgram String
  | some value => return value
  | none => do
    let never ← boot (.panicked message)
    nomatch never

/-- The accept loop of one listener, on its socket. -/
def spawnAccept (l : ListenerConfig) (socket : Nat) : BootProgram (Except Chain Unit) :=
  match l.acme with
  | some acme =>
    if build.acme then
      andThen (buildAcme lib.rustls acme.domains (acme.contactEmails.getD []) acme.cacheDirOr acme.directoryUrl
        (acme.staging.getD false) acme.caCert) fun (state, config) => do
        boot (.spawnDrive state)
        boot (.spawnAcmeListener socket config)
        return .ok ()
    else do
      let never ← boot (.panicked "internal error: entered unreachable code: validated: acme requires --features acme")
      nomatch never
  | none =>
    if l.protocol = "https" then do
      let certPath ← expect "validated" l.tlsCert
      let keyPath ← expect "validated" l.tlsKey
      andThen (loadTlsConfig lib.rustls certPath keyPath l.tlsClientCa) fun config => do
        boot (.spawnListener socket (some config))
        return .ok ()
    else do
      boot (.spawnListener socket none)
      return .ok ()

def startListener (l : ListenerConfig) : BootProgram (Except Chain Unit) :=
  match Net.parseSocketAddr l.addr with
  | none => return .error [Net.addrParseError]
  | some addr => do
    match ← boot (.bind addr) with
    | .error e => return .error [s!"Failed to bind {displayAddr addr}: {e}"]
    | .ok socket => spawnAccept build lib l socket

def startListeners : List ListenerConfig → BootProgram (Except Chain Unit)
  | [] => return .ok ()
  | l :: rest => andThen (startListener build lib l) fun _ => startListeners rest

/-- `Server::run` until it is ready. -/
def run (config : FullConfig) (configPath : String) : BootProgram (Except Chain Unit) :=
  andThen initMetrics fun _ => do
    boot (.startEngine config.core)
    boot (.spawnReload configPath)
    let addr := config.global.metricsAddr.getD "127.0.0.1:9090"
    match ← boot (.bindMetrics addr) with
    | .error e => return .error [s!"Failed to bind metrics addr {addr}: {e}"]
    | .ok socket => do
      boot (.spawnMetrics socket)
      andThen (startListeners build lib config.listener) fun _ => do
        boot .ready
        return .ok ()

def main (configPath : String) : BootProgram (Except Chain Unit) :=
  andThen (loadConfig lib configPath) fun config => do
    initLoggingFromConfig config
    match config.core.validate build lib.crates.parseUri with
    | .error e => return .error [e]
    | .ok () => run build lib config configPath

end

/-! ## What a history says -/

/-- How an accept loop treats its connections. -/
inductive Mode where
  | plain
  | tls (config : ServerConfig)
  | acme (config : ServerConfig)
  deriving DecidableEq

def spawnedBy : Boot → Option (Nat × Mode)
  | .spawnListener socket none => some (socket, .plain)
  | .spawnListener socket (some config) => some (socket, .tls config)
  | .spawnAcmeListener socket config => some (socket, .acme config)
  | _ => none

/-- The accept loops that were spawned, in order. -/
def spawned (past : BootHistory) : List (Nat × Mode) := past.filterMap fun e => spawnedBy e.act

/-- The certificates are those of the file, as it was read. -/
def CertsIn (rustls : Rustls) (past : BootHistory) (path : String) (certs : Certs) : Prop :=
  ∃ reader, ⟨.openFile path, .ok reader⟩ ∈ past ∧ collect (rustls.certs reader) = .ok certs.list

def KeyIn (rustls : Rustls) (past : BootHistory) (path : String) (key : PrivateKey) : Prop :=
  ∃ reader, ⟨.openFile path, .ok reader⟩ ∈ past ∧ rustls.privateKey reader = .ok (some key)

/-- The TLS of a listener with a certificate of its own is made of the files that it
    names: with `tls_client_ca` clients have to lead to the certificates in that file,
    without it nobody is asked for a certificate. -/
structure Secured (rustls : Rustls) (past : BootHistory) (l : ListenerConfig) (config : ServerConfig) : Prop where
  shown : ∃ certPath keyPath certs key, l.tlsCert = some certPath ∧ l.tlsKey = some keyPath ∧
    config.shown = .single certs key ∧ CertsIn rustls past certPath certs ∧ KeyIn rustls past keyPath key
  asked : ∀ path, l.tlsClientCa = some path → ∃ roots, config.clientAuth = some roots ∧ CertsIn rustls past path roots
  unasked : l.tlsClientCa = none → config.clientAuth = none
  protocols : config.alpnProtocols = offered

def ServesAs (rustls : Rustls) (past : BootHistory) (l : ListenerConfig) : Mode → Prop
  | .plain => l.protocol = "http" ∧ l.acme = none ∧ l.tlsClientCa = none
  | .tls config => l.protocol = "https" ∧ l.acme = none ∧ Secured rustls past l config
  | .acme config => l.protocol = "https" ∧ l.tlsClientCa = none ∧
    ∃ acme, l.acme = some acme ∧ config = ⟨.resolver acme.domains, none, offered⟩

/-- The accept loop stands on the socket that was bound for the listener's address and
    treats connections as the listener says. -/
def Serves (rustls : Rustls) (past : BootHistory) (l : ListenerConfig) (loop : Nat × Mode) : Prop :=
  (∃ addr, Net.parseSocketAddr l.addr = some addr ∧ ⟨.bind addr, .ok loop.1⟩ ∈ past) ∧ ServesAs rustls past l loop.2

/-- The listeners and no others are served, in order. -/
def Listening (rustls : Rustls) (past : BootHistory) (ls : List ListenerConfig) : Prop :=
  List.Forall₂ (Serves rustls past) ls (spawned past)

section
variable (build : Build) (lib : Libraries) (configPath : String)

/-- The config is what the file of the process holds. -/
def Read (past : BootHistory) (config : FullConfig) : Prop :=
  ∃ content, ⟨.readToString configPath, .ok content⟩ ∈ past ∧ lib.parseToml content = .ok config

/-- It was read and passed every check. -/
def Accepted (past : BootHistory) (config : FullConfig) : Prop :=
  Read lib configPath past config ∧ config.core.validate build lib.crates.parseUri = .ok ()

/-- The listeners before this one are served, and this one is next. -/
def Next (past : BootHistory) (config : FullConfig) (l : ListenerConfig) : Prop :=
  Accepted build lib configPath past config ∧
    ∃ done rest, config.listener = done ++ l :: rest ∧ Listening lib.rustls past done

/-- What may be performed after a history. -/
def May (past : BootHistory) : Boot → Prop
  | .readToString path => past = [] ∧ path = configPath
  | .initLogging format level => ∃ config, Read lib configPath past config ∧
    format = config.global.logFormat.getD "json" ∧ level = config.global.logLevel.getD "info"
  | .initMetrics => ∃ config, Accepted build lib configPath past config
  | .startEngine config => ∃ full, Accepted build lib configPath past full ∧ config = full.core
  | .spawnReload path => path = configPath ∧ ∃ full, Accepted build lib configPath past full ∧
    ⟨.startEngine full.core, ()⟩ ∈ past
  | .bindMetrics addr => ∃ config, Accepted build lib configPath past config ∧
    addr = config.global.metricsAddr.getD "127.0.0.1:9090"
  | .spawnMetrics socket => ∃ addr, ⟨.bindMetrics addr, .ok socket⟩ ∈ past
  | .bind addr => ∃ config l, Next build lib configPath past config l ∧ Net.parseSocketAddr l.addr = some addr
  | .openFile path => ∃ config l, Next build lib configPath past config l ∧ path ∈ l.files
  | .spawnDrive state => ∃ config l acme, Next build lib configPath past config l ∧ l.acme = some acme ∧
    state.domains = acme.domains
  | .spawnAcmeListener socket tls => ∃ config l, Next build lib configPath past config l ∧
    Serves lib.rustls past l (socket, .acme tls)
  | .spawnListener socket acceptor => ∃ config l, Next build lib configPath past config l ∧
    Serves lib.rustls past l (socket, acceptor.elim .plain .tls)
  | .panicked _ => False
  | .ready => ∃ config, Accepted build lib configPath past config ∧ Listening lib.rustls past config.listener

end

/-! ## Results of sequences -/

variable {α β : Type} {may : BootHistory → Boot → Prop}

/-- Whatever the answers, the program performs what is allowed, and a value that it
    returns is a good one. -/
def Gives (may : BootHistory → Boot → Prop) (past : BootHistory) (p : BootProgram (Except Chain α))
    (post : BootHistory → α → Prop) : Prop :=
  Keeps may (fun past result => ∀ value, result = .ok value → post past value) past p

theorem gives_ok {post : BootHistory → α → Prop} {past : BootHistory} {value : α} (good : post past value) :
    Gives may past (.ret (.ok value)) post := by
  rintro v ⟨⟩
  exact good

theorem gives_error {post : BootHistory → α → Prop} {past : BootHistory} {e : Chain} :
    Gives may past (.ret (.error e)) post := by
  rintro v ⟨⟩

theorem gives_ret {post : BootHistory → α → Prop} {past : BootHistory} {result : Except Chain α}
    (good : ∀ value, result = .ok value → post past value) : Gives may past (.ret result) post := good

theorem gives_call {post : BootHistory → α → Prop} {past : BootHistory} {a : Boot}
    {f : a.Res → BootProgram (Except Chain α)} (allowed : may past a)
    (later : ∀ r, Gives may (past ++ [⟨a, r⟩]) (f r) post) : Gives may past (boot a >>= f) post :=
  keeps_call_bind.mpr ⟨allowed, later⟩

theorem gives_andThen {m : BootHistory → α → Prop} {post : BootHistory → β → Prop} {past : BootHistory}
    {p : BootProgram (Except Chain α)} {f : α → BootProgram (Except Chain β)} (first : Gives may past p m)
    (later : ∀ past value, m past value → Gives may past (f value) post) : Gives may past (andThen p f) post := by
  refine keeps_bind.mpr (keeps_mono (fun _ _ allowed => allowed) ?_ first)
  intro past result good
  cases result with
  | error e => exact gives_error
  | ok value => exact later past value (good value rfl)

theorem chained_ok {front : Chain} {result : Except String α} {value : α} (ends : chained front result = .ok value) :
    result = .ok value := by
  cases result with
  | error e => cases ends
  | ok v =>
    cases ends
    rfl

theorem someCerts_ok {message : String} {list : List CertificateDer} {certs : Certs}
    (made : someCerts message list = .ok certs) : certs.list = list := by
  unfold someCerts at made
  split at made
  · cases made
    rfl
  · cases made

/-- A sequence that succeeds has succeeded at its beginning. -/
theorem before_ok {first : Except Chain α} {f : α → Except Chain β} {value : β} (ends : first >>= f = .ok value) :
    ∃ v, first = .ok v ∧ f v = .ok value := by
  cases first with
  | error e => cases ends
  | ok v => exact ⟨v, rfl, ends⟩

/-! ## What later actions keep -/

section
variable {rustls : Rustls} {past : BootHistory} {l : ListenerConfig}

@[simp] theorem spawned_append (past more : BootHistory) : spawned (past ++ more) = spawned past ++ spawned more := by
  simp [spawned]

theorem certsIn_append (more : BootHistory) {path : String} {certs : Certs} (there : CertsIn rustls past path certs) :
    CertsIn rustls (past ++ more) path certs := by
  obtain ⟨reader, read, same⟩ := there
  exact ⟨reader, List.mem_append_left _ read, same⟩

theorem keyIn_append (more : BootHistory) {path : String} {key : PrivateKey} (there : KeyIn rustls past path key) :
    KeyIn rustls (past ++ more) path key := by
  obtain ⟨reader, read, same⟩ := there
  exact ⟨reader, List.mem_append_left _ read, same⟩

theorem secured_append (more : BootHistory) {config : ServerConfig} (secured : Secured rustls past l config) :
    Secured rustls (past ++ more) l config := by
  refine ⟨?_, fun path named => ?_, secured.unasked, secured.protocols⟩
  · obtain ⟨certPath, keyPath, certs, key, cert, keyed, shown, read, readKey⟩ := secured.shown
    exact ⟨certPath, keyPath, certs, key, cert, keyed, shown, certsIn_append more read, keyIn_append more readKey⟩
  · obtain ⟨roots, asked, read⟩ := secured.asked path named
    exact ⟨roots, asked, certsIn_append more read⟩

theorem servesAs_append (more : BootHistory) {mode : Mode} (serves : ServesAs rustls past l mode) :
    ServesAs rustls (past ++ more) l mode := by
  cases mode with
  | plain => exact serves
  | tls config =>
    obtain ⟨https, own, secured⟩ := serves
    exact ⟨https, own, secured_append more secured⟩
  | acme config => exact serves

theorem serves_append (more : BootHistory) {loop : Nat × Mode} (serves : Serves rustls past l loop) :
    Serves rustls (past ++ more) l loop := by
  obtain ⟨⟨addr, parsed, bound⟩, as⟩ := serves
  exact ⟨⟨addr, parsed, List.mem_append_left _ bound⟩, servesAs_append more as⟩

theorem listening_quiet {ls : List ListenerConfig} {more : BootHistory} (quiet : spawned more = [])
    (listening : Listening rustls past ls) : Listening rustls (past ++ more) ls := by
  rw [Listening, spawned_append, quiet, List.append_nil]
  exact listening.imp fun _ _ serves => serves_append more serves

theorem listening_snoc {ls : List ListenerConfig} {e : Event Boot.Res} {loop : Nat × Mode}
    (spawns : spawnedBy e.act = some loop) (serves : Serves rustls past l loop) (listening : Listening rustls past ls) :
    Listening rustls (past ++ [e]) (ls ++ [l]) := by
  have last : spawned [e] = [loop] := by simp [spawned, spawns]
  rw [Listening, spawned_append, last]
  exact List.rel_append (listening.imp fun _ _ serves => serves_append [e] serves)
    (.cons (serves_append [e] serves) .nil)

end

/-- The config was accepted and the first of its listeners are served. -/
structure Standing (build : Build) (lib : Libraries) (configPath : String) (past : BootHistory) (config : FullConfig)
    (done : List ListenerConfig) : Prop where
  accepted : Accepted build lib configPath past config
  listening : Listening lib.rustls past done

section
variable {build : Build} {lib : Libraries} {configPath : String} {config : FullConfig} {past : BootHistory}
  {done rest : List ListenerConfig} {l : ListenerConfig}

theorem read_append (more : BootHistory) (read : Read lib configPath past config) :
    Read lib configPath (past ++ more) config := by
  obtain ⟨content, there, parsed⟩ := read
  exact ⟨content, List.mem_append_left _ there, parsed⟩

theorem accepted_append (more : BootHistory) (accepted : Accepted build lib configPath past config) :
    Accepted build lib configPath (past ++ more) config := ⟨read_append more accepted.1, accepted.2⟩

theorem standing_quiet (more : BootHistory) (quiet : spawned more = [])
    (standing : Standing build lib configPath past config done) :
    Standing build lib configPath (past ++ more) config done :=
  ⟨accepted_append more standing.accepted, listening_quiet quiet standing.listening⟩

theorem standing_next (split : config.listener = done ++ l :: rest)
    (standing : Standing build lib configPath past config done) : Next build lib configPath past config l :=
  ⟨standing.accepted, done, rest, split, standing.listening⟩

end

/-! ## Reading the files of a listener -/

section
variable {rustls : Rustls} {files : List String} {inv : BootHistory → Prop} {past : BootHistory} {path : String}

/-- The condition is kept by opening files, and it allows to open these. -/
structure Opening (may : BootHistory → Boot → Prop) (files : List String) (inv : BootHistory → Prop) : Prop where
  keeps : ∀ past path r, inv past → inv (past ++ [⟨.openFile path, r⟩])
  allows : ∀ past path, path ∈ files → inv past → may past (.openFile path)

theorem opening_and {m : BootHistory → Prop} (opening : Opening may files inv)
    (stays : ∀ past after, m past → m (past ++ after)) : Opening may files fun past => inv past ∧ m past where
  keeps past path r both := ⟨opening.keeps past path r both.1, stays past _ both.2⟩
  allows past path named both := opening.allows past path named both.1

theorem readCertsAs_gives (opening : Opening may files inv) (named : path ∈ files) (here : inv past)
    (first second : String) : Gives may past (readCertsAs rustls first second path) fun past list =>
      inv past ∧ ∃ reader, ⟨.openFile path, .ok reader⟩ ∈ past ∧ collect (rustls.certs reader) = .ok list := by
  refine gives_call (opening.allows past path named here) fun r => ?_
  cases r with
  | error e => exact gives_error
  | ok reader =>
    refine gives_ret fun list read => ?_
    exact ⟨opening.keeps past path _ here, reader, by simp, chained_ok read⟩

theorem readKey_gives (opening : Opening may files inv) (named : path ∈ files) (here : inv past) :
    Gives may past (readKey rustls path) fun past key => inv past ∧ KeyIn rustls past path key := by
  refine gives_call (opening.allows past path named here) fun r => ?_
  cases r with
  | error e => exact gives_error
  | ok reader =>
    have kept := opening.keeps past path (.ok reader) here
    cases read : rustls.privateKey reader with
    | error e =>
      simp only [read]
      exact gives_error
    | ok key =>
      cases key with
      | none =>
        simp only [read]
        exact gives_error
      | some key =>
        simp only [read]
        exact gives_ok ⟨kept, reader, by simp, read⟩

theorem clientAuth_gives {clientCa : Option String} (opening : Opening may files inv)
    (named : ∀ path, clientCa = some path → path ∈ files) (here : inv past) :
    Gives may past (clientAuth rustls clientCa) fun past auth => inv past ∧ (clientCa = none → auth = none) ∧
      ∀ path, clientCa = some path → ∃ roots, auth = some roots ∧ CertsIn rustls past path roots := by
  cases clientCa with
  | none => exact gives_ok ⟨here, fun _ => rfl, fun path absent => nomatch absent⟩
  | some path =>
    refine gives_andThen (m := fun past roots => inv past ∧ CertsIn rustls past path roots) ?_ ?_
    · refine gives_andThen (readCertsAs_gives opening (named path rfl) here _ _) ?_
      rintro past list ⟨kept, reader, there, read⟩
      refine gives_ret fun roots ends => ?_
      obtain ⟨certs, filled, ends⟩ := before_ok ends
      obtain ⟨-, -, ends⟩ := before_ok ends
      obtain ⟨-, -, ends⟩ := before_ok ends
      cases ends
      rw [← someCerts_ok filled] at read
      exact ⟨kept, reader, there, read⟩
    · rintro past roots ⟨kept, read⟩
      refine gives_ok ⟨kept, fun absent => (nomatch absent), ?_⟩
      rintro path ⟨⟩
      exact ⟨roots, rfl, read⟩

theorem buildAcme_gives {domains emails : List String} {cacheDir : String} {directoryUrl caCert : Option String}
    {staging : Bool} (opening : Opening may files inv) (named : ∀ path, caCert = some path → path ∈ files)
    (here : inv past) :
    Gives may past (buildAcme rustls domains emails cacheDir directoryUrl staging caCert) fun past built =>
      inv past ∧ built.1.domains = domains ∧ built.2 = ⟨.resolver domains, none, offered⟩ := by
  unfold buildAcme
  by_cases empty : domains = []
  · rw [if_pos empty]
    exact gives_error
  · rw [if_neg empty]
    refine gives_andThen (m := fun past _ => inv past) ?_ fun past roots kept => gives_ok ⟨kept, rfl, rfl⟩
    cases caCert with
    | none => exact gives_ok here
    | some path =>
      refine gives_andThen (m := fun past _ => inv past) ?_ fun past roots kept => gives_ok kept
      refine gives_andThen (readCertsAs_gives opening (named path rfl) here _ _) ?_
      rintro past list ⟨kept, -⟩
      exact gives_ret fun _ _ => kept

/-- A TLS configuration is made of the files of its listener. -/
theorem loadTlsConfig_gives {l : ListenerConfig} {certPath keyPath : String} (opening : Opening may l.files inv)
    (cert : l.tlsCert = some certPath) (key : l.tlsKey = some keyPath) (here : inv past) :
    Gives may past (loadTlsConfig rustls certPath keyPath l.tlsClientCa) fun past config =>
      inv past ∧ Secured rustls past l config := by
  have named : ∀ path, l.tlsCert = some path ∨ l.tlsKey = some path ∨ l.tlsClientCa = some path → path ∈ l.files := by
    intro path either
    rw [ListenerConfig.files, List.reduceOption_mem_iff]
    rcases either with h | h | h <;> simp [h]
  refine gives_andThen (readCertsAs_gives opening (named certPath (.inl cert)) here _ _) ?_
  rintro past₁ list ⟨kept₁, reader, there, read⟩
  refine gives_andThen (m := fun past certs => inv past ∧ CertsIn rustls past certPath certs) ?_ ?_
  · refine gives_ret fun certs made => ?_
    rw [← someCerts_ok made] at read
    exact ⟨kept₁, reader, there, read⟩
  rintro past₂ certs both
  have opening₂ := opening_and (m := fun past => CertsIn rustls past certPath certs) opening
    fun _ after => certsIn_append after
  refine gives_andThen (readKey_gives opening₂ (named keyPath (.inr (.inl key))) both) ?_
  rintro past₃ secret both
  have opening₃ := opening_and (m := fun past => KeyIn rustls past keyPath secret) opening₂
    fun _ after => keyIn_append after
  refine gives_andThen (clientAuth_gives opening₃ (fun path ca => named path (.inr (.inr ca))) both) ?_
  rintro past₄ auth ⟨⟨⟨kept, certain⟩, keyed⟩, unasked, asked⟩
  refine gives_ret fun tls ends => ?_
  obtain ⟨-, -, ends⟩ := before_ok ends
  cases ends
  exact ⟨kept, ⟨certPath, keyPath, certs, secret, cert, key, rfl, certain, keyed⟩, asked, unasked, rfl⟩

end

/-! ## The listeners, one after the other -/

section
variable {build : Build} {lib : Libraries} {configPath : String} {config : FullConfig} {past : BootHistory}
  {done rest : List ListenerConfig} {l : ListenerConfig}

/-- What a listener of an accepted config is like. -/
theorem accepted_listener {parseUri : Proxy.UriParser} (accepted : config.core.validate build parseUri = .ok ())
    (member : l ∈ config.listener) :
    (l.protocol = "http" ∧ l.acme = none ∧ l.tlsClientCa = none) ∨
      (l.protocol = "https" ∧ build.acme = true ∧ l.tlsClientCa = none ∧ ∃ acme, l.acme = some acme ∧ acme.domains ≠ []) ∨
      (l.protocol = "https" ∧ l.acme = none ∧ l.tlsCert.isSome = true ∧ l.tlsKey.isSome = true) := by
  have checked : Config.validateListener build parseUri l.core = .ok () := by
    unfold Config.validate at accepted
    simp only [Config.then_ok, Config.forM_ok] at accepted
    exact accepted.2.2.1 l.core (List.mem_map_of_mem member)
  unfold Config.validateListener at checked
  by_cases http : l.protocol = "http"
  · have core : l.core.protocol = "http" := http
    simp only [core, if_true, Config.then_ok, Config.bailIf_ok] at checked
    obtain ⟨-, own, ca⟩ := checked
    exact .inl ⟨http, by simpa [ListenerConfig.core] using own, by simpa [ListenerConfig.core] using ca⟩
  · by_cases https : l.protocol = "https"
    · have core : l.core.protocol = "https" := https
      have other : ("https" = "http") = False := by decide
      simp only [core, other, if_true, if_false] at checked
      cases managed : l.acme with
      | some acme =>
        have core : l.core.acme = some acme.core := by simp [ListenerConfig.core, managed]
        simp only [core, Config.validateAcme, Config.then_ok, Config.bailIf_ok] at checked
        obtain ⟨-, ⟨-, alone, domains, -, built⟩, -⟩ := checked
        refine .inr (.inl ⟨https, by simpa using built, ?_, acme, rfl, by simpa [AutoTlsConfig.core] using domains⟩)
        simpa [ListenerConfig.core] using alone
      | none =>
        have core : l.core.acme = none := by simp [ListenerConfig.core, managed]
        simp only [core, Config.then_ok, Config.bailIf_ok, Bool.or_eq_false_iff] at checked
        obtain ⟨-, ⟨cert, key⟩, -⟩ := checked
        refine .inr (.inr ⟨https, rfl, ?_, ?_⟩)
        · simpa [ListenerConfig.core, Option.ne_none_iff_isSome] using cert
        · simpa [ListenerConfig.core, Option.ne_none_iff_isSome] using key
    · have core : l.core.protocol ≠ "https" := https
      have plain : l.core.protocol ≠ "http" := http
      simp only [core, plain, if_false] at checked
      obtain ⟨-, never⟩ := Config.then_ok.mp checked
      cases never

/-- The socket of the next listener is bound. -/
def Bound (build : Build) (lib : Libraries) (configPath : String) (config : FullConfig) (done : List ListenerConfig)
    (addr : Net.SocketAddr) (socket : Nat) (past : BootHistory) : Prop :=
  Standing build lib configPath past config done ∧ ⟨.bind addr, .ok socket⟩ ∈ past

theorem bound_quiet {addr : Net.SocketAddr} {socket : Nat} (more : BootHistory)
    (quiet : spawned more = []) (bound : Bound build lib configPath config done addr socket past) :
    Bound build lib configPath config done addr socket (past ++ more) :=
  ⟨standing_quiet more quiet bound.1, List.mem_append_left _ bound.2⟩

theorem bound_opening {addr : Net.SocketAddr} {socket : Nat} (split : config.listener = done ++ l :: rest) :
    Opening (May build lib configPath) l.files (Bound build lib configPath config done addr socket) where
  keeps _ _ _ bound := bound_quiet _ rfl bound
  allows _ _ named bound := ⟨config, l, standing_next split bound.1, named⟩

/-- Spawning the loop of the next listener serves it, too. -/
theorem standing_spawn {loop : Nat × Mode} {e : Event Boot.Res} (spawns : spawnedBy e.act = some loop)
    (serves : Serves lib.rustls past l loop) (standing : Standing build lib configPath past config done) :
    Standing build lib configPath (past ++ [e]) config (done ++ [l]) :=
  ⟨accepted_append _ standing.accepted, listening_snoc spawns serves standing.listening⟩

theorem spawnAccept_gives {addr : Net.SocketAddr} {socket : Nat} (split : config.listener = done ++ l :: rest)
    (parsed : Net.parseSocketAddr l.addr = some addr)
    (here : Bound build lib configPath config done addr socket past) :
    Gives (May build lib configPath) past (spawnAccept build lib l socket) fun past _ =>
      Standing build lib configPath past config (done ++ [l]) := by
  have opening : Opening (May build lib configPath) l.files (Bound build lib configPath config done addr socket) :=
    bound_opening split
  have member : l ∈ config.listener := by simp [split]
  unfold spawnAccept
  rcases accepted_listener here.1.accepted.2 member with
    ⟨http, own, open_⟩ | ⟨https, built, open_, acme, managed, -⟩ | ⟨https, own, cert, key⟩
  · have plain : ¬ l.protocol = "https" := by simp [http]
    simp only [own, plain, if_false]
    have serves : Serves lib.rustls past l (socket, .plain) := ⟨⟨addr, parsed, here.2⟩, http, own, open_⟩
    refine gives_call ⟨config, l, standing_next split here.1, serves⟩ fun _ => gives_ok ?_
    exact standing_spawn rfl serves here.1
  · simp only [managed, built, if_true]
    refine gives_andThen (buildAcme_gives opening ?_ here) ?_
    · intro path named
      rw [ListenerConfig.files, List.reduceOption_mem_iff]
      simp [managed, named]
    rintro past ⟨state, tls⟩ ⟨bound, domains, rfl⟩
    refine gives_call ⟨config, l, acme, standing_next split bound.1, managed, domains⟩ fun r => ?_
    have driven := bound_quiet [⟨.spawnDrive state, r⟩] rfl bound
    have serves : Serves lib.rustls (past ++ [⟨.spawnDrive state, r⟩]) l
        (socket, .acme ⟨.resolver acme.domains, none, offered⟩) :=
      ⟨⟨addr, parsed, driven.2⟩, https, open_, acme, managed, rfl⟩
    refine gives_call ⟨config, l, standing_next split driven.1, serves⟩ fun _ => gives_ok ?_
    exact standing_spawn rfl serves driven.1
  · obtain ⟨certPath, cert⟩ := Option.isSome_iff_exists.mp cert
    obtain ⟨keyPath, key⟩ := Option.isSome_iff_exists.mp key
    simp only [own, https, if_true, cert, key, expect, Prog.pure_eq, Prog.ret_bind]
    refine gives_andThen (loadTlsConfig_gives opening cert key here) ?_
    rintro past tls ⟨bound, secured⟩
    have serves : Serves lib.rustls past l (socket, .tls tls) := ⟨⟨addr, parsed, bound.2⟩, https, own, secured⟩
    refine gives_call ⟨config, l, standing_next split bound.1, serves⟩ fun _ => gives_ok ?_
    exact standing_spawn rfl serves bound.1

theorem startListener_gives (split : config.listener = done ++ l :: rest)
    (here : Standing build lib configPath past config done) :
    Gives (May build lib configPath) past (startListener build lib l) fun past _ =>
      Standing build lib configPath past config (done ++ [l]) := by
  unfold startListener
  cases parsed : Net.parseSocketAddr l.addr with
  | none => exact gives_error
  | some addr =>
    refine gives_call ⟨config, l, standing_next split here, parsed⟩ fun r => ?_
    cases r with
    | error e => exact gives_error
    | ok socket => exact spawnAccept_gives split parsed ⟨standing_quiet _ rfl here, by simp⟩

/-- By induction on the listeners that are left. -/
theorem startListeners_gives (split : config.listener = done ++ rest)
    (here : Standing build lib configPath past config done) :
    Gives (May build lib configPath) past (startListeners build lib rest) fun past _ =>
      Standing build lib configPath past config config.listener := by
  induction rest generalizing past done with
  | nil =>
    rw [List.append_nil] at split
    exact gives_ok (split ▸ here)
  | cons l rest ih =>
    refine gives_andThen (startListener_gives split here) fun past _ standing => ?_
    exact ih (by simp [split]) standing

/-- Every listener is served and the process says so. -/
def Ready (build : Build) (lib : Libraries) (configPath : String) (past : BootHistory) : Prop :=
  ∃ config, Accepted build lib configPath past config ∧ Listening lib.rustls past config.listener ∧ ⟨.ready, ()⟩ ∈ past

theorem run_gives (accepted : Accepted build lib configPath past config) (unspawned : spawned past = []) :
    Gives (May build lib configPath) past (run build lib config configPath) fun past _ =>
      Ready build lib configPath past := by
  have standing : Standing build lib configPath past config [] := ⟨accepted, by rw [Listening, unspawned]; exact .nil⟩
  refine gives_andThen (m := fun past _ => Standing build lib configPath past config []) ?_ ?_
  · exact gives_call ⟨config, accepted⟩ fun r => gives_ret fun _ _ => standing_quiet _ rfl standing
  intro past _ standing
  refine gives_call ⟨config, standing.accepted, rfl⟩ fun r => ?_
  have standing := standing_quiet [⟨.startEngine config.core, r⟩] rfl standing
  refine gives_call ⟨rfl, config, standing.accepted, by simp⟩ fun r => ?_
  have standing := standing_quiet [⟨.spawnReload configPath, r⟩] rfl standing
  refine gives_call ⟨config, standing.accepted, rfl⟩ fun r => ?_
  have standing := standing_quiet [⟨.bindMetrics (config.global.metricsAddr.getD "127.0.0.1:9090"), r⟩] rfl standing
  cases r with
  | error e => exact gives_error
  | ok socket =>
    refine gives_call ⟨config.global.metricsAddr.getD "127.0.0.1:9090", by simp⟩ fun r => ?_
    have standing := standing_quiet [⟨.spawnMetrics socket, r⟩] rfl standing
    refine gives_andThen (startListeners_gives (List.nil_append _).symm standing) fun past _ standing => ?_
    refine gives_call ⟨config, standing.accepted, standing.listening⟩ fun _ => gives_ok ?_
    exact ⟨config, accepted_append _ standing.accepted, listening_quiet rfl standing.listening, by simp⟩

theorem main_gives : Gives (May build lib configPath) [] (main build lib configPath) fun past _ =>
    Ready build lib configPath past := by
  refine gives_andThen (m := fun past config => Read lib configPath past config ∧ spawned past = []) ?_ ?_
  · refine gives_call ⟨rfl, rfl⟩ fun text => gives_ret fun config loads => ?_
    obtain ⟨content, rfl, parsed⟩ := Config.loaded_ok.mp (chained_ok loads)
    exact ⟨⟨content, by simp, parsed⟩, rfl⟩
  rintro past config ⟨read, unspawned⟩
  refine gives_call ⟨config, read, rfl, rfl⟩ fun r => ?_
  cases checked : config.core.validate build lib.crates.parseUri with
  | error e => exact gives_error
  | ok u =>
    refine run_gives ⟨read_append _ read, checked⟩ ?_
    rw [spawned_append, unspawned]
    rfl

end

/-- However the files, the sockets and the other crates answer: everything is performed in
    its place, on what was configured, and nothing panics; and where `main` goes on to
    serve, the accept loops are those of the listeners, one for each and in their order. -/
theorem launch_listens (build : Build) (lib : Libraries) (configPath : String) (trace : BootHistory)
    (q : BootProgram (Except Chain Unit)) (run : Runs (main build lib configPath) trace q) :
    (∀ before e after, trace = before ++ e :: after → May build lib configPath before e.act) ∧
      (q = .ret (.ok ()) → Ready build lib configPath trace) := by
  constructor
  · rintro before e after rfl
    exact Prog.keeps_event main_gives run
  · rintro rfl
    exact Prog.keeps_runs main_gives run () rfl

/-! ## A process with a listener of each kind -/

/-- A listener of each kind, one of which requires client certificates. -/
def threeListeners : FullConfig where
  global := ⟨none, none, none⟩
  listener := [⟨"0.0.0.0:80", "http", none, none, none, none⟩,
    ⟨"0.0.0.0:443", "https", some "cert.pem", some "key.pem", some "ca.pem", none⟩,
    ⟨"[::]:8443", "https", none, none, none, some ⟨["example.org"], none, none, none, none, none⟩⟩]
  route := [Samples.route "api" "http://10.0.0.1:80"]

/-- The content of every file, which stands for one certificate and for its key. -/
def der : CertificateDer := [48, 130]

def digest : List UInt8 :=
  [157, 240, 105, 46, 109, 41, 178, 164, 6, 49, 205, 117, 234, 12, 228, 98, 6, 55, 78, 220, 183, 167, 149, 12, 227, 24, 0,
    37, 199, 8, 138, 0]

/-- Libraries that take what the files hold, with the digest of it. -/
def rustls : Rustls where
  certs reader := [.ok reader.bytes]
  privateKey reader := .ok (some reader.bytes)
  add _ := .ok ()
  buildVerifier _ := .ok ()
  singleCert _ _ := .ok ()
  sha256 bytes := if bytes = der then digest else []

def libraries : Libraries := ⟨Samples.parseUri, fun _ => .ok threeListeners, Samples.wasm, rustls⟩

/-- Files are there and sockets are free. -/
def favourable (a : Boot) : Option a.Res :=
  match a with
  | .readToString _ => some (.ok "")
  | .initMetrics => some (.ok ())
  | .bindMetrics _ => some (.ok 0)
  | .bind addr => some (.ok addr.port.toNat)
  | .openFile _ => some (.ok ⟨der, none⟩)
  | .panicked _ => none
  | .initLogging _ _ | .startEngine _ | .spawnReload _ | .spawnMetrics _ | .spawnDrive _ | .spawnAcmeListener _ _
  | .spawnListener _ _ | .ready => some ()

def succeeded : BootProgram (Except Chain Unit) → Bool
  | .ret (.ok ()) => true
  | _ => false

theorem succeeded_iff {q : BootProgram (Except Chain Unit)} (success : succeeded q = true) : q = .ret (.ok ()) := by
  unfold succeeded at success
  split at success
  · rfl
  · cases success

theorem launch_listens_threeListeners :
    ∃ trace, Runs (main Samples.build libraries "torana.toml") trace (.ret (.ok ())) ∧
      (∀ before e after, trace = before ++ e :: after → May Samples.build libraries "torana.toml" before e.act) ∧
      Ready Samples.build libraries "torana.toml" trace := by
  have ends : succeeded (Prog.follow favourable (main Samples.build libraries "torana.toml")).2 = true := by decide +kernel
  have run := Prog.runs_follow favourable (main Samples.build libraries "torana.toml")
  rw [succeeded_iff ends] at run
  obtain ⟨allowed, ready⟩ := launch_listens Samples.build libraries "torana.toml" _ _ run
  exact ⟨_, run, allowed, ready rfl⟩

end Launch
end Torana
