import Mathlib.Data.List.Basic

/-!
Bytes as lower-case hexadecimal digits, two for each byte with the high half first,
and the reader that gives the bytes back. One text spells one list of bytes.
-/
namespace Torana
namespace Hex

/-- The two digits of a byte. -/
def byte (b : UInt8) : List Char := [Nat.digitChar (b.toNat / 16), Nat.digitChar (b.toNat % 16)]

def encode (bytes : List UInt8) : List Char := bytes.flatMap byte

/-- The value of a lower-case digit. -/
def digitValue (c : Char) : Nat := if c.isDigit then c.toNat - 48 else c.toNat - 87

def decode : List Char → List UInt8
  | high :: low :: rest => .ofNat (digitValue high * 16 + digitValue low) :: decode rest
  | _ => []

@[simp] theorem encode_nil : encode [] = [] := rfl
@[simp] theorem encode_cons (b : UInt8) (rest : List UInt8) : encode (b :: rest) = byte b ++ encode rest := rfl

theorem digitValue_digitChar {d : Nat} (small : d < 16) : digitValue (Nat.digitChar d) = d := by
  have all : ∀ d < 16, digitValue (Nat.digitChar d) = d := by decide
  exact all d small

theorem decode_encode (bytes : List UInt8) : decode (encode bytes) = bytes := by
  induction bytes with
  | nil => rfl
  | cons b rest ih =>
    have bound := b.toNat_lt
    have high : digitValue (Nat.digitChar (b.toNat / 16)) = b.toNat / 16 := digitValue_digitChar (by omega)
    have low : digitValue (Nat.digitChar (b.toNat % 16)) = b.toNat % 16 := digitValue_digitChar (by omega)
    have halves : b.toNat / 16 * 16 + b.toNat % 16 = b.toNat := by omega
    rw [encode_cons, byte, List.cons_append, List.cons_append, List.nil_append, decode, high, low, halves, ih,
      UInt8.ofNat_toNat]

/-- Only the sixteen digits occur. -/
theorem encode_digits {bytes : List UInt8} {c : Char} (member : c ∈ encode bytes) :
    ∃ d < 16, c = Nat.digitChar d := by
  obtain ⟨b, -, inside⟩ := List.mem_flatMap.mp member
  have bound := b.toNat_lt
  rcases List.mem_cons.mp inside with rfl | last
  · exact ⟨_, by omega, rfl⟩
  · rw [List.mem_singleton] at last
    exact ⟨_, by omega, last⟩

end Hex
end Torana
