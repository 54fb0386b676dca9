import Torana.Hex
import Torana.Server

/-!
How a listener's TLS is set up (`tls.rs` and `acme.rs`) from the files that its
configuration names, and what a client's certificate is known by behind it. Reading PEM,
checking keys and roots and the digest belong to other crates and are parameters.

The files are read one after the other, so each is an action of its own.
-/
namespace Torana

namespace Tls

/-! ## What other crates do -/

abbrev CertificateDer := List UInt8
abbrev PrivateKey := List UInt8

/-- An open file: what it gives, and the error with which it ends before its end. -/
structure Reader where
  bytes : List UInt8
  broken : Option String

/-- An error behind the contexts that were put in front of it, outermost first. -/
abbrev Chain := List String

structure Rustls where
  /-- `rustls_pemfile::certs`, item by item. -/
  certs : Reader → List (Except String CertificateDer)
  /-- `rustls_pemfile::private_key`. -/
  privateKey : Reader → Except String (Option PrivateKey)
  /-- `RootCertStore::add`. -/
  add : CertificateDer → Except String Unit
  /-- `WebPkiClientVerifier::builder(roots).build()`. -/
  buildVerifier : List CertificateDer → Except String Unit
  /-- `with_single_cert`. -/
  singleCert : List CertificateDer → PrivateKey → Except String Unit
  /-- `ring::digest::digest(&SHA256, ..)`. -/
  sha256 : CertificateDer → List UInt8

/-! ## The configurations that are built -/

/-- At least one certificate. -/
structure Certs where
  list : List CertificateDer
  nonempty : list ≠ []
  deriving DecidableEq

/-- What a listener shows its clients. -/
inductive Shown where
  | single (certs : Certs) (key : PrivateKey)
  | resolver (domains : List String)
  deriving DecidableEq

/-- `rustls::ServerConfig`: with client authentication, the roots that a client's
    certificate has to lead to. -/
structure ServerConfig where
  shown : Shown
  clientAuth : Option Certs
  alpnProtocols : List (List UInt8)
  deriving DecidableEq

def h2 : List UInt8 := Text.asBytes "h2".toList

/-- Offer `h2` first. -/
def offered : List (List UInt8) := [h2, Text.asBytes "http/1.1".toList]

/-- Where certificates are ordered from. -/
inductive Directory where
  | url (url : String)
  | letsEncrypt (production : Bool)

/-- `AcmeConfig` as `build` fills it; with roots, only they are trusted for the directory. -/
structure AcmeConfig where
  domains : List String
  cache : String
  contacts : List String
  directory : Directory
  roots : Option Certs

/-! ## The actions of starting up -/

/-- The actions by which the process starts, up to the point where it is ready. -/
inductive Boot where
  | readToString (path : String)
  | initLogging (format level : String)
  | initMetrics
  /-- `ProxyEngine::new` and the start of its probers. -/
  | startEngine (config : Config)
  | spawnReload (configPath : String)
  | bindMetrics (addr : String)
  | spawnMetrics (socket : Nat)
  | bind (addr : Net.SocketAddr)
  | openFile (path : String)
  | spawnDrive (state : AcmeConfig)
  | spawnAcmeListener (socket : Nat) (config : ServerConfig)
  | spawnListener (socket : Nat) (acceptor : Option ServerConfig)
  /-- A failed `expect` and `unreachable!`. -/
  | panicked (message : String)
  | ready

@[reducible] def Boot.Res : Boot → Type
  | .readToString _ => Except String String
  | .initMetrics => Except String Unit
  | .bindMetrics _ | .bind _ => Except String Nat
  | .openFile _ => Except String Reader
  | .panicked _ => Empty
  | _ => Unit

abbrev BootProgram (α : Type) := Prog Boot Boot.Res α
abbrev BootHistory := List (Event Boot.Res)

/-- Perform one action. -/
abbrev boot (a : Boot) : BootProgram a.Res := Prog.call a

/-- The operator `?`: go on with the value, or return the error. -/
def andThen {α β : Type} (p : BootProgram (Except Chain α)) (f : α → BootProgram (Except Chain β)) :
    BootProgram (Except Chain β) := do
  match ← p with
  | .error e => return .error e
  | .ok value => f value

/-- `map_err` and `context`, which put texts in front. -/
def chained {α : Type} (front : Chain) : Except String α → Except Chain α
  | .error e => .error (front ++ [e])
  | .ok value => .ok value

/-- `collect::<Result<Vec<_>, _>>`: all of them, or the first error. -/
def collect {α : Type} : List (Except String α) → Except String (List α)
  | [] => .ok []
  | .error e :: _ => .error e
  | .ok value :: rest => match collect rest with
    | .error e => .error e
    | .ok values => .ok (value :: values)

/-- `bail!` where there is no certificate. -/
def someCerts (message : String) (list : List CertificateDer) : Except Chain Certs :=
  if nonempty : list ≠ [] then .ok ⟨list, nonempty⟩ else .error [message]

/-- Add all of them to a root store. -/
def addAll (rustls : Rustls) (list : List CertificateDer) : Except String Unit := list.forM rustls.add

section
variable (rustls : Rustls)

/-- Open a file and read the certificates in it. -/
def readCertsAs (opening parsing path : String) : BootProgram (Except Chain (List CertificateDer)) := do
  match ← boot (.openFile path) with
  | .error e => return .error [opening, e]
  | .ok reader => return chained [parsing] (collect (rustls.certs reader))

def readCerts (path : String) : BootProgram (Except Chain (List CertificateDer)) :=
  readCertsAs rustls s!"opening certificate file '{path}'" s!"parsing certificates in '{path}'" path

def readKey (path : String) : BootProgram (Except Chain PrivateKey) := do
  match ← boot (.openFile path) with
  | .error e => return .error [s!"opening key file '{path}'", e]
  | .ok reader =>
    match rustls.privateKey reader with
    | .error e => return .error [e]
    | .ok none => return .error [s!"No private key found in {path}"]
    | .ok (some key) => return .ok key

/-- The roots of a listener that requires client certificates. -/
def loadClientCa (path : String) : BootProgram (Except Chain Certs) :=
  andThen (readCerts rustls path) fun list => return do
    let roots ← someCerts s!"No CA certificates found in {path}" list
    chained ["adding CA certificate to trust store"] (addAll rustls roots.list)
    chained ["building mTLS client certificate verifier"] (rustls.buildVerifier roots.list)
    return roots

def clientAuth : Option String → BootProgram (Except Chain (Option Certs))
  | some path => andThen (loadClientCa rustls path) fun roots => return .ok (some roots)
  | none => return .ok none

/-- `load_tls_config`. -/
def loadTlsConfig (certPath keyPath : String) (clientCaPath : Option String) :
    BootProgram (Except Chain ServerConfig) :=
  andThen (readCerts rustls certPath) fun list =>
  andThen (return someCerts s!"No certificates found in {certPath}" list) fun certs =>
  andThen (readKey rustls keyPath) fun key =>
  andThen (clientAuth rustls clientCaPath) fun roots => return do
    chained [] (rustls.singleCert certs.list key)
    return ⟨.single certs key, roots, offered⟩

/-! ## ACME -/

/-- `build_client_tls_config`, of which only the roots matter. -/
def buildClientTlsConfig (path : String) : BootProgram (Except Chain Certs) :=
  andThen (readCertsAs rustls s!"opening acme.ca_cert '{path}'" s!"parsing acme.ca_cert '{path}'" path) fun list =>
    return do
      let roots ← someCerts s!"acme.ca_cert '{path}' contains no certificates" list
      chained ["adding acme.ca_cert to trust store"] (addAll rustls roots.list)
      return roots

def directoryRoots : Option String → BootProgram (Except Chain (Option Certs))
  | some path => andThen (buildClientTlsConfig rustls path) fun roots => return .ok (some roots)
  | none => return .ok none

/-- `acme::build`: the state that orders certificates, and the configuration for the
    connections that are no validation. -/
def buildAcme (domains contactEmails : List String) (cacheDir : String) (directoryUrl : Option String) (staging : Bool)
    (caCert : Option String) : BootProgram (Except Chain (AcmeConfig × ServerConfig)) :=
  if domains = [] then return .error ["ACME requires at least one domain"]
  else andThen (directoryRoots rustls caCert) fun roots =>
    let directory := directoryUrl.elim (.letsEncrypt (!staging)) .url
    let state := ⟨domains, cacheDir, contactEmails.map fun email => s!"mailto:{email}", directory, roots⟩
    return .ok (state, ⟨.resolver domains, none, offered⟩)

/-! ## The fingerprint of a certificate -/

/-- `format!("{:02x}", b)`. -/
def writeByte (b : UInt8) : List Char :=
  let digits := Text.hexadecimal b.toNat
  List.replicate (2 - digits.length) '0' ++ digits

theorem writeByte_eq (b : UInt8) : writeByte b = Hex.byte b := by
  have all : ∀ n < 256, writeByte (.ofNat n) = Hex.byte (.ofNat n) := by decide +kernel
  rw [← UInt8.ofNat_toNat (x := b)]
  exact all b.toNat b.toNat_lt

theorem writeBytes_eq (bytes : List UInt8) : bytes.flatMap writeByte = Hex.encode bytes := by
  rw [funext writeByte_eq]
  rfl

/-- `cert_fingerprint`. -/
def certFingerprint (der : CertificateDer) : Server.Fingerprint where
  text := String.ofList ((rustls.sha256 der).flatMap writeByte)
  hex := by
    rw [writeBytes_eq, String.toList_ofList, List.all_eq_true]
    intro c member
    obtain ⟨d, small, rfl⟩ := Hex.encode_digits member
    have all : ∀ d < 16, Server.isLowerHex (Nat.digitChar d) = true := by decide
    exact all d small

end

end Tls
end Torana
