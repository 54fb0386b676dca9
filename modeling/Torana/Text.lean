import Mathlib.Algebra.Group.Nat.Defs
import Mathlib.Data.List.DropRight

/-!
What the code uses of the standard library's strings, over the characters of a
string: splitting, trimming, ASCII case, UTF-8 bytes and unsigned numbers.
-/
namespace Torana.Text

/-! ## Splitting and trimming -/

/-- `char::is_whitespace`: the characters with the Unicode property White_Space. -/
def isWhitespace (c : Char) : Bool :=
  let n := c.toNat
  (9 ≤ n && n ≤ 13) || n = 32 || n = 0x85 || n = 0xA0 || n = 0x1680 || (0x2000 ≤ n && n ≤ 0x200A) ||
    n = 0x2028 || n = 0x2029 || n = 0x202F || n = 0x205F || n = 0x3000

/-- `str::trim`. -/
def trim (s : List Char) : List Char := (s.dropWhile isWhitespace).rdropWhile isWhitespace

/-- `str::split(c).next()`: what stands before the first `c`, or everything. -/
def splitNext (c : Char) (s : List Char) : List Char := (s.splitOn c).headD s

/-- `str::rsplit_once(c)`: what stands before and after the last `c`. -/
def rsplitOnce (c : Char) (s : List Char) : Option (List Char × List Char) :=
  if c ∈ s then some ((s.reverse.dropWhile (· ≠ c)).tail.reverse, (s.reverse.takeWhile (· ≠ c)).reverse) else none

/-- `str::strip_prefix`. -/
def stripPrefix (start s : List Char) : Option (List Char) :=
  if start.isPrefixOf s then some (s.drop start.length) else none

/-- `str::split_whitespace`. -/
def splitWhitespace (s : List Char) : List (List Char) := (s.splitOnP isWhitespace).filter (· ≠ [])

/-! ## ASCII case -/

/-- `str::to_ascii_lowercase`. -/
def toAsciiLowercase (s : List Char) : List Char := s.map Char.toLower

/-- `str::eq_ignore_ascii_case`. -/
def eqIgnoreAsciiCase (a b : List Char) : Bool := toAsciiLowercase a = toAsciiLowercase b

/-! ## Bytes -/

/-- `str::as_bytes`: the UTF-8 encoding. -/
def asBytes (s : List Char) : List UInt8 := s.flatMap String.utf8EncodeChar

/-- A character that has begun: its bits so far, the bytes that it still needs and
    the range of the next of them. -/
structure Pending where
  value : Nat
  more : Nat
  low : Nat
  high : Nat

def replacement : Char := Char.ofNat 0xFFFD

/-- A byte where a character has to begin. -/
def beginChar (b : Nat) : List Char × Option Pending :=
  if b < 0x80 then ([Char.ofNat b], none)
  else if 0xC2 ≤ b && b ≤ 0xDF then ([], some ⟨b % 32, 1, 0x80, 0xBF⟩)
  else if b = 0xE0 then ([], some ⟨b % 16, 2, 0xA0, 0xBF⟩)
  else if b = 0xED then ([], some ⟨b % 16, 2, 0x80, 0x9F⟩)
  else if 0xE1 ≤ b && b ≤ 0xEF then ([], some ⟨b % 16, 2, 0x80, 0xBF⟩)
  else if b = 0xF0 then ([], some ⟨b % 8, 3, 0x90, 0xBF⟩)
  else if 0xF1 ≤ b && b ≤ 0xF3 then ([], some ⟨b % 8, 3, 0x80, 0xBF⟩)
  else if b = 0xF4 then ([], some ⟨b % 8, 3, 0x80, 0x8F⟩)
  else ([replacement], none)

/-- The next byte. One that cannot continue the character that has begun ends it as
    one replacement character and begins the next. -/
def nextByte (pending : Option Pending) (b : Nat) : List Char × Option Pending :=
  match pending with
  | none => beginChar b
  | some p =>
    if p.low ≤ b && b ≤ p.high then
      let value := p.value * 64 + b % 64
      if p.more = 1 then ([Char.ofNat value], none) else ([], some ⟨value, p.more - 1, 0x80, 0xBF⟩)
    else (replacement :: (beginChar b).1, (beginChar b).2)

def decodeLossyFrom : Option Pending → List UInt8 → List Char
  | none, [] => []
  | some _, [] => [replacement]
  | pending, b :: rest => (nextByte pending b.toNat).1 ++ decodeLossyFrom (nextByte pending b.toNat).2 rest

/-- `String::from_utf8_lossy`. -/
def decodeLossy (bytes : List UInt8) : List Char := decodeLossyFrom none bytes

/-! ## Unsigned numbers -/

/-- Why `str::parse` rejects an unsigned number (`std::num::IntErrorKind`). -/
inductive IntError where
  | empty
  | invalidDigit
  | posOverflow
  deriving DecidableEq

def IntError.message : IntError → String
  | .empty => "cannot parse integer from empty string"
  | .invalidDigit => "invalid digit found in string"
  | .posOverflow => "number too large to fit in target type"

/-- Read decimal digits behind the value `acc`, which stays below `bound`. -/
def parseDigits (bound : Nat) : Nat → List Char → Except IntError Nat
  | acc, [] => .ok acc
  | acc, c :: rest =>
    if c.isDigit then
      let value := acc * 10 + (c.toNat - 48)
      if value < bound then parseDigits bound value rest else .error .posOverflow
    else .error .invalidDigit

/-- `str::parse` for the unsigned type of the given width: a sign `+` may come first. -/
def parseUint (bits : Nat) : List Char → Except IntError Nat
  | [] => .error .empty
  | ['+'] => .error .invalidDigit
  | '+' :: digits => parseDigits (2 ^ bits) 0 digits
  | digits => parseDigits (2 ^ bits) 0 digits

/-- The decimal digits of a number, as `Display` writes them. -/
def decimal (n : Nat) : List Char := Nat.toDigits 10 n

/-- The lower-case hexadecimal digits of a number, as `LowerHex` writes them. -/
def hexadecimal (n : Nat) : List Char := Nat.toDigits 16 n

end Torana.Text
