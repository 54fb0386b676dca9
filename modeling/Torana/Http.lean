import Torana.Table
import Torana.Text

/-!
The messages that the proxy handles, with the interface of the `http` crate:
field names compare without case, field values are bytes of which some are no
text, and a header map holds any number of values for each name in order.
-/
namespace Torana.Http

/-! ## Field names -/

/-- The token characters that a lower-case field name is made of. -/
def isNameChar (c : Char) : Bool :=
  c.isDigit || c.isLower || "!#$%&'*+-.^_`|~".toList.contains c

/-- Between 1 and 65535 token characters, without upper-case letters. -/
def isNameText (text : String) : Bool :=
  text ≠ "" && text.length ≤ 65535 && text.toList.all isNameChar

/-- A field name, kept in lower case. -/
structure HeaderName where
  text : String
  wellFormed : isNameText text = true
  deriving DecidableEq

/-- `HeaderName::from_bytes` and `str::parse`: names differ in more than case. -/
def HeaderName.fromBytes (name : String) : Option HeaderName :=
  let lower := String.ofList (Text.toAsciiLowercase name.toList)
  if h : isNameText lower = true then some ⟨lower, h⟩ else none

namespace HeaderName
def connection : HeaderName := ⟨"connection", by decide⟩
def host : HeaderName := ⟨"host", by decide⟩
def keepAlive : HeaderName := ⟨"keep-alive", by decide⟩
def proxyAuthenticate : HeaderName := ⟨"proxy-authenticate", by decide⟩
def proxyAuthorization : HeaderName := ⟨"proxy-authorization", by decide⟩
def te : HeaderName := ⟨"te", by decide⟩
def trailer : HeaderName := ⟨"trailer", by decide⟩
def transferEncoding : HeaderName := ⟨"transfer-encoding", by decide⟩
def upgrade : HeaderName := ⟨"upgrade", by decide⟩
def xForwardedFor : HeaderName := ⟨"x-forwarded-for", by decide⟩
def xForwardedProto : HeaderName := ⟨"x-forwarded-proto", by decide⟩
def xClientCertFingerprint : HeaderName := ⟨"x-client-cert-fingerprint", by decide⟩
end HeaderName

theorem fromBytes_text {name : String} {n : HeaderName} (parsed : HeaderName.fromBytes name = some n) :
    n.text = String.ofList (Text.toAsciiLowercase name.toList) := by
  simp only [HeaderName.fromBytes] at parsed
  split at parsed
  · cases parsed; rfl
  · cases parsed

theorem fromBytes_inj {a b : String} {n : HeaderName} (left : HeaderName.fromBytes a = some n)
    (right : HeaderName.fromBytes b = some n) : Text.toAsciiLowercase a.toList = Text.toAsciiLowercase b.toList := by
  have same := (fromBytes_text left).symm.trans (fromBytes_text right)
  simpa using congrArg String.toList same

/-! ## Field values -/

/-- The bytes that a field value may hold: no control characters but the tab. -/
def isLegalByte (b : UInt8) : Bool := (32 ≤ b && b ≠ 127) || b = 9
/-- The bytes that `HeaderValue::to_str` takes for text. -/
def isVisibleByte (b : UInt8) : Bool := (32 ≤ b && b < 127) || b = 9

structure HeaderValue where
  bytes : List UInt8
  legal : bytes.all isLegalByte = true
  deriving DecidableEq

/-- `HeaderValue::from_str`: the bytes of the text, if a field value may hold them. -/
def HeaderValue.fromStr (text : String) : Option HeaderValue :=
  let bytes := Text.asBytes text.toList
  if h : bytes.all isLegalByte = true then some ⟨bytes, h⟩ else none

/-- `HeaderValue::to_str`: the value as text, unless it holds opaque bytes. -/
def HeaderValue.toStr (v : HeaderValue) : Option String :=
  if v.bytes.all isVisibleByte then some (String.ofList (v.bytes.map fun b => Char.ofNat b.toNat)) else none

/-- Text that a field value holds and gives back. -/
def isVisibleText (text : String) : Bool := text.toList.all fun c => (32 ≤ c.toNat && c.toNat < 127) || c.toNat = 9

theorem utf8_ascii {c : Char} (ascii : c.toNat < 128) : String.utf8EncodeChar c = [UInt8.ofNat c.toNat] := by
  have small : c.toNat ≤ 127 := by omega
  simp [String.utf8EncodeChar, small]

private theorem visible_char {c : Char} (visible : ((32 ≤ c.toNat && c.toNat < 127) || c.toNat = 9) = true) :
    c.toNat < 127 ∧ isVisibleByte (UInt8.ofNat c.toNat) = true := by
  have range : (32 ≤ c.toNat ∧ c.toNat < 127) ∨ c.toNat = 9 := by simpa using visible
  have below : c.toNat < 127 := by omega
  refine ⟨below, ?_⟩
  have value : (UInt8.ofNat c.toNat).toNat = c.toNat := by
    rw [UInt8.toNat_ofNat']
    omega
  simp only [isVisibleByte, Bool.or_eq_true, Bool.and_eq_true, decide_eq_true_eq, UInt8.le_iff_toNat_le,
    UInt8.lt_iff_toNat_lt, ← UInt8.toNat_inj, value]
  exact range

theorem visible_legal {b : UInt8} (visible : isVisibleByte b = true) : isLegalByte b = true := by
  simp only [isVisibleByte, isLegalByte, Bool.or_eq_true, Bool.and_eq_true, decide_eq_true_eq, ne_eq] at *
  rcases visible with ⟨low, high⟩ | tab
  · refine .inl ⟨low, ?_⟩
    rintro rfl
    exact absurd high (by decide)
  · exact .inr tab

/-- Visible text makes a field value that reads back as the text. -/
theorem fromStr_visible {text : String} (visible : isVisibleText text = true) :
    ∃ v, HeaderValue.fromStr text = some v ∧ v.toStr = some text := by
  have chars : ∀ c ∈ text.toList, c.toNat < 127 ∧ isVisibleByte (UInt8.ofNat c.toNat) = true :=
    fun c member => visible_char (List.all_eq_true.mp visible c member)
  have bytes : Text.asBytes text.toList = text.toList.map fun c => UInt8.ofNat c.toNat := by
    unfold Text.asBytes
    rw [List.map_eq_flatMap]
    refine List.flatMap_congr fun c member => ?_
    exact utf8_ascii (by have := (chars c member).1; omega)
  have allVisible : (Text.asBytes text.toList).all isVisibleByte = true := by
    rw [bytes, List.all_map, List.all_eq_true]
    exact fun c member => (chars c member).2
  have allLegal : (Text.asBytes text.toList).all isLegalByte = true :=
    List.all_eq_true.mpr fun b member => visible_legal (List.all_eq_true.mp allVisible b member)
  refine ⟨⟨Text.asBytes text.toList, allLegal⟩, by simp [HeaderValue.fromStr, allLegal], ?_⟩
  have back : (Text.asBytes text.toList).map (fun b => Char.ofNat b.toNat) = text.toList := by
    rw [bytes, List.map_map]
    refine (List.map_congr_left fun c member => ?_).trans (List.map_id _)
    have small := (chars c member).1
    have value : (UInt8.ofNat c.toNat).toNat = c.toNat := by
      rw [UInt8.toNat_ofNat']
      omega
    simp [value, Char.ofNat_toNat]
  simp [HeaderValue.toStr, allVisible, back]

/-! ## Header maps and messages -/

abbrev HeaderMap := Multimap HeaderName HeaderValue

inductive Method where
  | get
  | head
  | options
  | post
  | put
  | delete
  | connect
  | trace
  | patch
  | extension (name : String)
  deriving DecidableEq

def Method.asStr : Method → String
  | .get => "GET"
  | .head => "HEAD"
  | .options => "OPTIONS"
  | .post => "POST"
  | .put => "PUT"
  | .delete => "DELETE"
  | .connect => "CONNECT"
  | .trace => "TRACE"
  | .patch => "PATCH"
  | .extension name => name

inductive Version where
  | http10
  | http11
  | http2
  deriving DecidableEq

/-- The components of a request target, absent where the form of the target has none. -/
structure Uri where
  scheme : Option String
  authority : Option String
  pathAndQuery : Option String
  deriving DecidableEq

/-- `Uri::path`: the path component, which is `/` where an empty one was sent. -/
def Uri.path (uri : Uri) : String :=
  match uri.pathAndQuery with
  | none => ""
  | some pq =>
    let path := Text.splitNext '?' pq.toList
    if path = [] then "/" else String.ofList path

/-- A request head (`http::request::Parts`). -/
structure Parts where
  method : Method
  uri : Uri
  version : Version
  headers : HeaderMap

/-- A client's body with its `size_hint().exact()`. -/
structure Incoming where
  bytes : List UInt8
  exactSize : Option Nat
  deriving DecidableEq

/-- The body of a request to an upstream (`UpstreamBody`). -/
inductive UpstreamBody where
  | empty
  | streamed (body : Incoming)
  deriving DecidableEq

/-- The body of an answer: one of the proxy's own texts, or streamed from an upstream. -/
inductive ProxyBody where
  | text (message : String)
  | streamed (bytes : List UInt8)
  deriving DecidableEq

structure Request (Body : Type) where
  parts : Parts
  body : Body

structure Response (Body : Type) where
  status : Nat
  headers : HeaderMap
  body : Body

end Torana.Http
