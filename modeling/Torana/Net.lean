import Torana.Text

/-!
Socket addresses as `std::net` reads and writes them: the listener addresses of
the configuration are read here, and the address of a client is written into
the forwarding fields.
-/
namespace Torana.Net

inductive IpAddr where
  | v4 (a b c d : UInt8)
  | v6 (segments : Vector UInt16 8)
  deriving DecidableEq

structure SocketAddr where
  ip : IpAddr
  port : UInt16
  deriving DecidableEq

/-! ## Reading -/

/-- What a reader consumed and what is left, or none with nothing consumed. -/
abbrev Reader (α : Type) := List Char → Option (α × List Char)

/-- The value of a digit below the radix. -/
def toDigit (radix : Nat) (c : Char) : Option Nat :=
  let value :=
    if c.isDigit then c.toNat - 48
    else if c.isLower then c.toNat - 87
    else if c.isUpper then c.toNat - 55
    else radix
  if value < radix then some value else none

/-- A number below the bound, with at most the given count of digits and a leading
    zero only where one is allowed. -/
def readNumber (radix bound : Nat) (maxDigits : Option Nat) (zeroPrefix : Bool) : Reader Nat := fun s =>
  let digits := s.takeWhile fun c => (toDigit radix c).isSome
  let value := (digits.filterMap (toDigit radix)).foldl (fun n d => n * radix + d) 0
  if digits = [] || maxDigits.any (· < digits.length) || (!zeroPrefix && digits.head? = some '0' && 1 < digits.length) ||
      bound ≤ value then none
  else some (value, s.drop digits.length)

def readGivenChar (c : Char) : Reader Unit
  | [] => none
  | first :: rest => if first = c then some ((), rest) else none

/-- The separator, except before the first of a sequence. -/
def readSeparator (c : Char) (first : Bool) : Reader Unit := fun s =>
  if first then some ((), s) else readGivenChar c s

def readIpv4Addr : Reader (Nat × Nat × Nat × Nat) := fun s => do
  let octet := readNumber 10 256 (some 3) false
  let (a, s) ← octet s
  let (_, s) ← readGivenChar '.' s
  let (b, s) ← octet s
  let (_, s) ← readGivenChar '.' s
  let (c, s) ← octet s
  let (_, s) ← readGivenChar '.' s
  let (d, s) ← octet s
  return ((a, b, c, d), s)

/-- Up to the given count of groups, and whether the last two came from an IPv4
    address, which needs room for two. -/
def readGroups : (room : Nat) → (first : Bool) → List Char → List Nat × Bool × List Char
  | 0, _, s => ([], false, s)
  | room + 1, first, s =>
    let embedded := if 1 ≤ room then (readSeparator ':' first s).bind fun r => readIpv4Addr r.2 else none
    match embedded with
    | some ((a, b, c, d), rest) => ([a * 256 + b, c * 256 + d], true, rest)
    | none =>
      match (readSeparator ':' first s).bind fun r => readNumber 16 65536 (some 4) true r.2 with
      | some (group, rest) =>
        let (groups, v4, rest) := readGroups room false rest
        (group :: groups, v4, rest)
      | none => ([], false, s)

/-- Eight groups, of which one run of zeros may be written `::`. -/
def readIpv6Addr : Reader (List Nat) := fun s =>
  let (head, v4, s) := readGroups 8 true s
  if head.length = 8 then some (head, s)
  else if v4 then none
  else do
    let (_, s) ← readGivenChar ':' s
    let (_, s) ← readGivenChar ':' s
    let (tail, _, s) := readGroups (7 - head.length) true s
    return (head ++ List.replicate (8 - head.length - tail.length) 0 ++ tail, s)

def readPort : Reader Nat := fun s => do
  let (_, s) ← readGivenChar ':' s
  readNumber 10 65536 none true s

def readSocketAddrV4 : Reader SocketAddr := fun s => do
  let ((a, b, c, d), s) ← readIpv4Addr s
  let (port, s) ← readPort s
  return (⟨.v4 (.ofNat a) (.ofNat b) (.ofNat c) (.ofNat d), .ofNat port⟩, s)

def readSocketAddrV6 : Reader SocketAddr := fun s => do
  let (_, s) ← readGivenChar '[' s
  let (groups, s) ← readIpv6Addr s
  let s := match (readGivenChar '%' s).bind fun r => readNumber 10 (2 ^ 32) none true r.2 with
    | some (_, rest) => rest
    | none => s
  let (_, s) ← readGivenChar ']' s
  let (port, s) ← readPort s
  return (⟨.v6 (Vector.ofFn fun i => .ofNat (groups.getD i 0)), .ofNat port⟩, s)

/-- `str::parse::<SocketAddr>`. -/
def parseSocketAddr (text : String) : Option SocketAddr :=
  match (readSocketAddrV4 text.toList).orElse fun _ => readSocketAddrV6 text.toList with
  | some (addr, []) => some addr
  | _ => none

/-- `str::parse::<IpAddr>`. -/
def parseIpAddr (s : List Char) : Option IpAddr :=
  match readIpv4Addr s with
  | some ((a, b, c, d), []) => some (.v4 (.ofNat a) (.ofNat b) (.ofNat c) (.ofNat d))
  | _ =>
    match readIpv6Addr s with
    | some (groups, []) => some (.v6 (Vector.ofFn fun i => .ofNat (groups.getD i 0)))
    | _ => none

/-- The text of `AddrParseError` for a socket address. -/
def addrParseError : String := "invalid socket address syntax"

/-! ## Writing -/

/-- The first longest run of zero segments, as its start and length. -/
def longestZeros : (i : Nat) → (current longest : Nat × Nat) → List UInt16 → Nat × Nat
  | _, _, longest, [] => longest
  | i, current, longest, segment :: rest =>
    if segment = 0 then
      let current := (if current.2 = 0 then i else current.1, current.2 + 1)
      longestZeros (i + 1) current (if longest.2 < current.2 then current else longest) rest
    else longestZeros (i + 1) (0, 0) longest rest

def writeSegments (segments : List UInt16) : List Char :=
  [':'].intercalate (segments.map fun s => Text.hexadecimal s.toNat)

def writeIpv4Addr (a b c d : UInt8) : List Char :=
  ['.'].intercalate ([a, b, c, d].map fun octet => Text.decimal octet.toNat)

/-- `IpAddr::to_string`. -/
def IpAddr.toText : IpAddr → String
  | .v4 a b c d => String.ofList (writeIpv4Addr a b c d)
  | .v6 segments =>
    match segments.toList with
    | [0, 0, 0, 0, 0, 0xffff, x, y] =>
      String.ofList ("::ffff:".toList ++
        writeIpv4Addr (x >>> 8).toUInt8 x.toUInt8 (y >>> 8).toUInt8 y.toUInt8)
    | all =>
      let (start, len) := longestZeros 0 (0, 0) (0, 0) all
      if 1 < len then
        String.ofList (writeSegments (all.take start) ++ "::".toList ++ writeSegments (all.drop (start + len)))
      else String.ofList (writeSegments all)

example : (parseSocketAddr "127.0.0.1:8080").map (·.ip.toText) = some "127.0.0.1" := by decide
example : (parseSocketAddr "[2001:db8::1:0:0:1%2]:443").map (·.ip.toText) = some "2001:db8::1:0:0:1" := by decide
example : parseSocketAddr "127.0.0.01:8080" = none := by decide

end Torana.Net
