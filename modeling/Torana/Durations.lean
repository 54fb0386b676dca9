import Torana.Addresses

/-!
The texts that `parse_duration` accepts and the durations that it makes of them. The minutes are
multiplied without a check: in a release build the product wraps, and in a debug build it panics.
-/
namespace Torana
open Config (Duration parseDuration)

namespace Durations

/-! ## Written durations -/

inductive TimeUnit where
  | ms
  | s
  | m
  deriving DecidableEq

def TimeUnit.text : TimeUnit → List Char
  | .ms => "ms".toList
  | .s => "s".toList
  | .m => "m".toList

/-- The milliseconds of one unit. -/
def TimeUnit.millis : TimeUnit → Nat
  | .ms => 1
  | .s => 1000
  | .m => 60000

/-- ASCII digits, with a value of 64 bits, and a unit. -/
structure Literal where
  digits : List Char
  unit : TimeUnit
  written : digits ≠ []
  decimal : digits.all Char.isDigit = true
  small : Nat.ofDigitChars 10 digits 0 < 2 ^ 64

def Literal.value (literal : Literal) : Nat := Nat.ofDigitChars 10 literal.digits 0
def Literal.text (literal : Literal) : List Char := literal.digits ++ literal.unit.text
def Literal.millis (literal : Literal) : Nat := literal.value * literal.unit.millis

/-- The text is the literal, with white space around it. -/
def Spells (text : String) (literal : Literal) : Prop := Text.trim text.toList = literal.text

/-- The text writes the duration, which has less than `2 ^ 64` seconds. -/
def Writes (text : String) (d : Duration) : Prop :=
  ∃ literal, Spells text literal ∧ literal.millis < 2 ^ 64 * 1000 ∧ d = literal.millis

/-- The text writes minutes that are `2 ^ 64` seconds or more. -/
def Overflows (text : String) : Prop :=
  ∃ literal, Spells text literal ∧ literal.unit = .m ∧ 2 ^ 64 ≤ literal.value * 60

/-! ## Overflow checks -/

/-- `parse_duration` in a debug build, where the product of the minutes panics (`none`) if it does
    not fit. -/
def parseDurationDebug (text : String) : Option (Except String Duration) :=
  let s := Text.trim text.toList
  let shown := String.ofList s
  let num := s.takeWhile Char.isDigit
  let unit := s.dropWhile Char.isDigit
  if unit = [] then some (.error s!"Duration '{shown}' is missing a unit (ms, s, m)")
  else match Text.parseUint 64 num with
    | .error _ => some (.error s!"Invalid duration value '{shown}'")
    | .ok value =>
      if unit = "ms".toList then some (.ok value)
      else if unit = "s".toList then some (.ok (value * 1000))
      else if unit = "m".toList then
        if value * 60 < 2 ^ 64 then some (.ok (value * 60 * 1000)) else none
      else
        let shownUnit := String.ofList unit
        some (.error s!"Unknown duration unit '{shownUnit}' in '{shown}'")

/-! ## Literals -/

theorem unit_ends (unit : TimeUnit) : unit.text ≠ [] ∧ unit.text.takeWhile Char.isDigit = [] := by
  cases unit <;> decide

theorem literal_digits (literal : Literal) : literal.text.takeWhile Char.isDigit = literal.digits := by
  rw [Literal.text, List.takeWhile_append_of_pos (List.all_eq_true.mp literal.decimal), (unit_ends literal.unit).2,
    List.append_nil]

theorem literal_unit (literal : Literal) : literal.text.dropWhile Char.isDigit = literal.unit.text := by
  have parts := List.takeWhile_append_dropWhile (p := Char.isDigit) (l := literal.text)
  rw [literal_digits] at parts
  exact List.append_cancel_left parts

theorem unit_inj {first second : TimeUnit} (same : first.text = second.text) : first = second := by
  cases first <;> cases second <;> first | rfl | exact absurd same (by decide)

/-- A text is one literal at most. -/
theorem spells_unique {text : String} {first second : Literal} (one : Spells text first) (other : Spells text second) :
    first = second := by
  have same : first.text = second.text := one.symm.trans other
  have digits : first.digits = second.digits := by rw [← literal_digits, ← literal_digits, same]
  have units : first.unit = second.unit := by
    apply unit_inj
    rw [← literal_unit, ← literal_unit, same]
  cases first
  cases second
  cases digits
  cases units
  rfl

/-- What the release build makes of a literal. -/
def Literal.wrapped (literal : Literal) : Nat :=
  match literal.unit with
  | .ms => literal.value
  | .s => literal.value * 1000
  | .m => literal.value * 60 % 2 ^ 64 * 1000

/-- The minutes are more than the product can hold. -/
def Literal.Long (literal : Literal) : Prop := literal.unit = .m ∧ 2 ^ 64 ≤ literal.value * 60

/-- A literal is read exactly when it is one of less than `2 ^ 64` seconds. -/
theorem millis_lt_iff {literal : Literal} : literal.millis < 2 ^ 64 * 1000 ↔ ¬literal.Long := by
  have small : literal.value < 2 ^ 64 := literal.small
  unfold Literal.millis Literal.Long
  cases literal.unit with
  | ms =>
    simp [TimeUnit.millis]
    omega
  | s =>
    simp [TimeUnit.millis]
    omega
  | m =>
    simp [TimeUnit.millis]
    omega

theorem wrapped_eq {literal : Literal} (short : ¬literal.Long) : literal.wrapped = literal.millis := by
  unfold Literal.Long at short
  unfold Literal.wrapped Literal.millis
  cases unit : literal.unit with
  | ms => simp [TimeUnit.millis]
  | s => simp [TimeUnit.millis]
  | m =>
    have fits : literal.value * 60 < 2 ^ 64 := by
      by_contra long
      exact short ⟨unit, by omega⟩
    simp only [TimeUnit.millis, Nat.mod_eq_of_lt fits]
    omega

/-! ## What a text is read as -/

/-- The text is a literal, which the release build wraps and the debug build checks, or it is none
    and both builds reject it with the same message. -/
def Read (text : String) : Prop :=
  (∃ literal, Spells text literal ∧ parseDuration text = .ok literal.wrapped ∧
    (literal.Long ∧ parseDurationDebug text = none ∨
      ¬literal.Long ∧ parseDurationDebug text = some (.ok literal.millis))) ∨
  (∀ literal, ¬Spells text literal) ∧
    ∃ message, parseDuration text = .error message ∧ parseDurationDebug text = some (.error message)

theorem read_literal {text : String} {literal : Literal} (spells : Spells text literal) : Read text := by
  have trimmed : Text.trim text.toList = literal.text := spells
  have number : Text.parseUint 64 literal.digits = .ok literal.value :=
    (Addresses.parseUint_digits literal.decimal).mpr ⟨literal.written, rfl, literal.small⟩
  refine .inl ⟨literal, spells, ?_, ?_⟩
  · unfold parseDuration Literal.wrapped
    simp only [trimmed, literal_digits, literal_unit, number]
    cases literal.unit <;> rfl
  · unfold parseDurationDebug Literal.Long Literal.millis
    simp only [trimmed, literal_digits, literal_unit, number]
    cases literal.unit with
    | ms =>
      refine .inr ⟨fun long => TimeUnit.noConfusion long.1, ?_⟩
      rw [TimeUnit.millis, Nat.mul_one]
      rfl
    | s => exact .inr ⟨fun long => TimeUnit.noConfusion long.1, rfl⟩
    | m =>
      by_cases fits : literal.value * 60 < 2 ^ 64
      · refine .inr ⟨fun long => Nat.not_le_of_lt fits long.2, ?_⟩
        have scaled : literal.value * 60 * 1000 = literal.value * 60000 := Nat.mul_assoc ..
        rw [TimeUnit.millis, ← scaled]
        exact if_pos fits
      · exact .inl ⟨⟨rfl, Nat.le_of_not_lt fits⟩, if_neg fits⟩

theorem spells_of_parts {text : String} {value : Nat} {unit : TimeUnit}
    (number : Text.parseUint 64 ((Text.trim text.toList).takeWhile Char.isDigit) = .ok value)
    (ends : (Text.trim text.toList).dropWhile Char.isDigit = unit.text) : ∃ literal, Spells text literal := by
  obtain ⟨written, rfl, small⟩ := (Addresses.parseUint_digits List.all_takeWhile).mp number
  refine ⟨⟨(Text.trim text.toList).takeWhile Char.isDigit, unit, written, List.all_takeWhile, small⟩, ?_⟩
  rw [Spells, Literal.text, ← ends, List.takeWhile_append_dropWhile]

theorem read (text : String) : Read text := by
  by_cases literal : ∃ literal, Spells text literal
  · obtain ⟨literal, spells⟩ := literal
    exact read_literal spells
  · refine .inr ⟨fun one spells => literal ⟨one, spells⟩, ?_⟩
    unfold parseDuration parseDurationDebug
    simp only
    by_cases bare : (Text.trim text.toList).dropWhile Char.isDigit = []
    · exact ⟨_, if_pos bare, if_pos bare⟩
    · rw [if_neg bare, if_neg bare]
      cases number : Text.parseUint 64 ((Text.trim text.toList).takeWhile Char.isDigit) with
      | error e => exact ⟨_, rfl, rfl⟩
      | ok value =>
        have unread : ∀ unit : TimeUnit, (Text.trim text.toList).dropWhile Char.isDigit ≠ unit.text :=
          fun unit ends => literal (spells_of_parts number ends)
        have ms : (Text.trim text.toList).dropWhile Char.isDigit ≠ "ms".toList := unread .ms
        have s : (Text.trim text.toList).dropWhile Char.isDigit ≠ "s".toList := unread .s
        have m : (Text.trim text.toList).dropWhile Char.isDigit ≠ "m".toList := unread .m
        simp only [if_neg ms, if_neg s, if_neg m]
        exact ⟨_, rfl, rfl⟩

/-! ## What is accepted -/

theorem writes_iff {text : String} {literal : Literal} (spells : Spells text literal) (d : Duration) :
    Writes text d ↔ ¬literal.Long ∧ d = literal.millis := by
  constructor
  · rintro ⟨other, also, short, rfl⟩
    rw [spells_unique spells also, ← millis_lt_iff]
    exact ⟨short, rfl⟩
  · rintro ⟨short, rfl⟩
    exact ⟨literal, spells, millis_lt_iff.mpr short, rfl⟩

theorem overflows_iff {text : String} {literal : Literal} (spells : Spells text literal) :
    Overflows text ↔ literal.Long := by
  constructor
  · rintro ⟨other, also, long⟩
    rw [spells_unique spells also]
    exact long
  · intro long
    exact ⟨literal, spells, long⟩

/-- Both builds accept exactly the durations that are written, and read them exactly, unless the
    text writes minutes that the product cannot hold: then the release build accepts another
    duration, and the debug build panics. -/
theorem grammar_exact (text : String) :
    ((∀ d, parseDuration text = .ok d ↔ Writes text d) ↔ ¬Overflows text) ∧
      ((parseDurationDebug text ≠ none ∧ ∀ d, parseDurationDebug text = some (.ok d) ↔ Writes text d) ↔
        ¬Overflows text) := by
  rcases read text with
    ⟨literal, spells, release, ⟨long, debug⟩ | ⟨short, debug⟩⟩ | ⟨unspelled, message, release, debug⟩
  · rw [release, debug, overflows_iff spells]
    refine ⟨⟨fun exact => ?_, fun short => absurd long short⟩, ⟨fun calm => ?_, fun short => absurd long short⟩⟩
    · exact absurd long ((writes_iff spells _).mp ((exact literal.wrapped).mp rfl)).1
    · exact absurd rfl calm.1
  · rw [release, debug, overflows_iff spells, wrapped_eq short]
    have read : ∀ d : Duration, literal.millis = d ↔ Writes text d := by
      intro d
      rw [writes_iff spells]
      exact ⟨fun same => ⟨short, same.symm⟩, fun same => same.2.symm⟩
    simp only [Except.ok.injEq, Option.some.injEq]
    exact ⟨⟨fun _ => short, fun _ => read⟩, ⟨fun _ => short, fun _ => ⟨Option.some_ne_none _, read⟩⟩⟩
  · have calm : ¬Overflows text := by
      rintro ⟨literal, spells, -⟩
      exact unspelled literal spells
    have unwritten : ∀ d, ¬Writes text d := by
      rintro d ⟨literal, spells, -⟩
      exact unspelled literal spells
    have release_exact : ∀ d, Except.error message = .ok d ↔ Writes text d := by
      intro d
      exact iff_of_false (by simp) (unwritten d)
    have debug_exact : ∀ d, some (Except.error message) = some (.ok d) ↔ Writes text d := by
      intro d
      exact iff_of_false (by simp) (unwritten d)
    rw [release, debug]
    exact ⟨⟨fun _ => calm, fun _ => release_exact⟩,
      ⟨fun _ => calm, fun _ => ⟨Option.some_ne_none _, debug_exact⟩⟩⟩

/-- So many minutes that the product is 44 more than `2 ^ 64`. -/
def wrapping : Literal := ⟨"307445734561825861".toList, .m, by decide, by decide, by decide +kernel⟩

theorem wrapping_spelled : Spells "307445734561825861m" wrapping := by
  unfold Spells
  decide +kernel

theorem minutes_wrapped :
    parseDuration "307445734561825861m" = .ok 44000 ∧ ¬Writes "307445734561825861m" 44000 ∧
      parseDurationDebug "307445734561825861m" = none := by
  refine ⟨by decide +kernel, ?_, by decide +kernel⟩
  intro written
  have short := ((writes_iff wrapping_spelled _).mp written).1
  exact short ⟨rfl, by decide +kernel⟩

end Durations
end Torana
