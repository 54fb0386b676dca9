import Torana.Completeness

/-!
The addresses that a config is written with, and what `upstream_host_port` reads in
them. The port is what stands behind the last colon, also where no port is written
and the colon is one of the host's own.
-/
namespace Torana
open Proxy (upstreamHostPort)
open Uris (isHost)

namespace Addresses

/-! ## Written addresses -/

/-- The number that decimal digits write. -/
def portValue (digits : List Char) : Nat := Nat.ofDigitChars 10 digits 0

/-- A decimal port in `0..65535`. -/
structure Port where
  digits : List Char
  written : digits ≠ []
  decimal : digits.all Char.isDigit = true
  small : portValue digits < 65536
  deriving DecidableEq

/-- What follows the host and the port: nothing, or a path. -/
structure Suffix where
  text : List Char
  path : text = [] ∨ text.head? = some '/'
  deriving DecidableEq

def portText (port : Option Port) : List Char := port.elim [] fun port => ':' :: port.digits

/-- A written address, with or without `http://` in front. -/
def addressText (scheme : Bool) (host : List Char) (port : Option Port) (suffix : Suffix) : List Char :=
  (if scheme then "http://".toList else []) ++ (host ++ portText port ++ suffix.text)

/-! ## Splitting -/

theorem splitNext_made {c : Char} {first : List Char} (absent : c ∉ first) {rest : List Char}
    (ends : rest = [] ∨ rest.head? = some c) : Text.splitNext c (first ++ rest) = first := by
  rcases ends with rfl | head
  · rw [List.append_nil, Text.splitNext, List.splitOn_eq_singleton absent, List.headD_cons]
  · rw [List.eq_cons_of_mem_head? head, Text.splitNext, List.splitOn_append_cons_self_of_not_mem absent,
      List.headD_cons]

theorem splitNext_eq (c : Char) (s : List Char) : Text.splitNext c s = s.takeWhile (· ≠ c) := by
  by_cases held : c ∈ s
  · obtain ⟨before, after, rfl, absent⟩ := List.eq_append_cons_of_mem held
    rw [splitNext_made absent (.inr rfl), (Uris.takeWhile_ne absent after).1]
  · have whole := splitNext_made held (.inl rfl)
    rw [List.append_nil] at whole
    rw [whole, Uris.takeWhile_absent held]

theorem rsplitOnce_made {c : Char} (before : List Char) {behind : List Char} (absent : c ∉ behind) :
    Text.rsplitOnce c (before ++ c :: behind) = some (before, behind) := by
  have reversed : (before ++ c :: behind).reverse = behind.reverse ++ c :: before.reverse := by simp
  have absent : c ∉ behind.reverse := by simpa using absent
  obtain ⟨taken, dropped⟩ := Uris.takeWhile_ne absent before.reverse
  rw [Text.rsplitOnce, if_pos (List.mem_append_right _ List.mem_cons_self), reversed, taken, dropped]
  simp

/-- A text that holds the separator is split at its last one. -/
theorem rsplitOnce_found {c : Char} {s : List Char} (held : c ∈ s) :
    ∃ before behind, s = before ++ c :: behind ∧ c ∉ behind ∧ Text.rsplitOnce c s = some (before, behind) := by
  obtain ⟨front, back, same, absent⟩ := List.eq_append_cons_of_mem (List.mem_reverse.mpr held)
  have parts : s = back.reverse ++ c :: front.reverse := by
    rw [← List.reverse_reverse s, same]
    simp
  have absent' : c ∉ front.reverse := by simpa using absent
  refine ⟨back.reverse, front.reverse, parts, absent', ?_⟩
  rw [parts]
  exact rsplitOnce_made _ absent'

/-! ## Numbers -/

theorem ofDigitChars_le (digits : List Char) (acc : Nat) : acc ≤ Nat.ofDigitChars 10 digits acc := by
  induction digits generalizing acc with
  | nil => exact Nat.le_refl acc
  | cons c rest ih =>
    rw [Nat.ofDigitChars_cons]
    have grown : acc ≤ 10 * acc + (c.toNat - '0'.toNat) := by omega
    exact Nat.le_trans grown (ih _)

/-- One digit is read when what is read with it stays below the bound. -/
theorem parseDigits_cons {bound acc value : Nat} {c : Char} {rest : List Char} :
    Text.parseDigits bound acc (c :: rest) = .ok value ↔ c.isDigit = true ∧ acc * 10 + (c.toNat - 48) < bound ∧
      Text.parseDigits bound (acc * 10 + (c.toNat - 48)) rest = .ok value := by
  rw [Text.parseDigits]
  by_cases digit : c.isDigit = true
  · by_cases below : acc * 10 + (c.toNat - 48) < bound
    · simp [digit, below]
    · simp [digit, below]
  · simp [digit]

theorem parseDigits_made {bound acc : Nat} {digits : List Char} (decimal : digits.all Char.isDigit = true)
    (small : Nat.ofDigitChars 10 digits acc < bound) :
    Text.parseDigits bound acc digits = .ok (Nat.ofDigitChars 10 digits acc) := by
  induction digits generalizing acc with
  | nil => rfl
  | cons c rest ih =>
    rw [List.all_cons, Bool.and_eq_true] at decimal
    rw [Nat.ofDigitChars_cons, Nat.mul_comm] at small ⊢
    have below : acc * 10 + (c.toNat - 48) < bound := Nat.lt_of_le_of_lt (ofDigitChars_le rest _) small
    exact parseDigits_cons.mpr ⟨decimal.1, below, ih decimal.2 small⟩

theorem parseDigits_small {bound acc value : Nat} {digits : List Char} (start : acc < bound)
    (parsed : Text.parseDigits bound acc digits = .ok value) : value < bound := by
  induction digits generalizing acc with
  | nil =>
    cases parsed
    exact start
  | cons c rest ih =>
    obtain ⟨-, below, parsed⟩ := parseDigits_cons.mp parsed
    exact ih below parsed

theorem parseDigits_value {bound acc value : Nat} {digits : List Char}
    (parsed : Text.parseDigits bound acc digits = .ok value) : value = Nat.ofDigitChars 10 digits acc := by
  induction digits generalizing acc with
  | nil =>
    cases parsed
    rfl
  | cons c rest ih =>
    obtain ⟨-, -, parsed⟩ := parseDigits_cons.mp parsed
    rw [Nat.ofDigitChars_cons, Nat.mul_comm]
    exact ih parsed

/-- Digits are a number exactly when there is one and the number fits. -/
theorem parseUint_digits {bits value : Nat} {digits : List Char} (decimal : digits.all Char.isDigit = true) :
    Text.parseUint bits digits = .ok value ↔
      digits ≠ [] ∧ value = Nat.ofDigitChars 10 digits 0 ∧ value < 2 ^ bits := by
  cases digits with
  | nil => simp [Text.parseUint]
  | cons c rest =>
    have plain : c ≠ '+' := by
      rintro rfl
      exact absurd (List.all_eq_true.mp decimal _ List.mem_cons_self) (by decide)
    have unsigned : Text.parseUint bits (c :: rest) = Text.parseDigits (2 ^ bits) 0 (c :: rest) := by
      unfold Text.parseUint
      split
      · rename_i same
        cases same
      · rename_i same
        cases same
        exact absurd rfl plain
      · rename_i same
        cases same
        exact absurd rfl plain
      · rfl
    rw [unsigned]
    constructor
    · intro parsed
      have small := parseDigits_small (Nat.two_pow_pos bits) parsed
      exact ⟨List.cons_ne_nil c rest, parseDigits_value parsed, small⟩
    · rintro ⟨-, rfl, small⟩
      exact parseDigits_made decimal small

/-! ## Ports -/

theorem parsePort_made (port : Port) : Text.parseUint 16 port.digits = .ok (portValue port.digits) :=
  (parseUint_digits port.decimal).mpr ⟨port.written, rfl, port.small⟩

/-- The port of a number, as it is displayed. -/
def portOf (port : Nat) (small : port < 65536) : Port where
  digits := Text.decimal port
  written := Nat.toDigits_ne_nil
  decimal := Completeness.decimal_digits port
  small := by
    rw [portValue, Text.decimal, Nat.ofDigitChars_ten_toDigits]
    exact small

theorem parsePort_decimal {port : Nat} (small : port < 65536) : Text.parseUint 16 (Text.decimal port) = .ok port := by
  have value : portValue (Text.decimal port) = port := Nat.ofDigitChars_ten_toDigits
  exact (parsePort_made (portOf port small)).trans (congrArg _ value)

theorem parseUint_small {bits value : Nat} {digits : List Char} (parsed : Text.parseUint bits digits = .ok value) :
    value < 2 ^ bits := by
  have start : 0 < 2 ^ bits := Nat.two_pow_pos bits
  unfold Text.parseUint at parsed
  split at parsed
  · cases parsed
  · cases parsed
  · exact parseDigits_small start parsed
  · exact parseDigits_small start parsed

/-- What an address says about the port is one. -/
theorem upstreamHostPort_small {upstream host : String} {port : Nat}
    (split : upstreamHostPort upstream = .ok (host, port)) : port < 65536 := by
  unfold upstreamHostPort at split
  simp only at split
  split at split
  · split at split
    · rename_i parsed
      simp only [bind, Except.bind] at split
      split at split
      · cases split
      · cases split
        exact parseUint_small parsed
    · cases split
  · simp only [bind, Except.bind] at split
    split at split
    · cases split
    · cases split
      decide

/-! ## What is in an address -/

theorem host_no_slash {host : List Char} (legal : isHost host = true) : '/' ∉ host := by
  intro member
  exact (Uris.hostChar_visible (Uris.host_chars legal _ member)).2.2.2 (by decide)

theorem host_ne_nil {host : List Char} (legal : isHost host = true) : host ≠ [] := by
  rintro rfl
  exact absurd legal (by decide)

theorem port_plain (port : Port) : '/' ∉ port.digits ∧ ':' ∉ port.digits := by
  have digits := List.all_eq_true.mp port.decimal
  exact ⟨fun member => absurd (digits _ member) (by decide), fun member => absurd (digits _ member) (by decide)⟩

theorem portText_no_slash (port : Option Port) : '/' ∉ portText port := by
  cases port with
  | none => exact List.not_mem_nil
  | some port =>
    intro member
    rcases List.mem_cons.mp member with same | inside
    · cases same
    · exact (port_plain port).1 inside

/-- What is left of an address once the scheme and the path are cut off. -/
def hostPort (upstream : String) : List Char :=
  Text.splitNext '/' ((Text.stripPrefix "http://".toList upstream.toList).getD upstream.toList)

theorem unprefixed {host : List Char} (legal : isHost host = true) (port : Option Port) (suffix : Suffix) :
    Text.stripPrefix "http://".toList (host ++ portText port ++ suffix.text) = none := by
  cases stripped : Text.stripPrefix "http://".toList (host ++ portText port ++ suffix.text) with
  | none => rfl
  | some rest =>
    exfalso
    have parts := Uris.stripPrefix_some stripped
    -- In front of the first slash stand both the host with its port and `http:`.
    have front : host ++ portText port = "http:".toList := by
      have absent : '/' ∉ host ++ portText port := by
        intro member
        exact (List.mem_append.mp member).elim (host_no_slash legal) (portText_no_slash port)
      rw [← splitNext_made absent suffix.path, parts]
      have colon : '/' ∉ "http:".toList := by decide
      exact splitNext_made colon (.inr rfl)
    cases port with
    | none =>
      rw [portText, Option.elim_none, List.append_nil] at front
      rw [front] at legal
      exact absurd legal (by decide)
    | some port =>
      rw [portText, Option.elim_some] at front
      have last : port.digits.getLast? = some ':' := by
        rw [← List.getLast?_cons_of_ne_nil (x := ':') port.written,
          ← List.getLast?_append_of_ne_nil host (List.cons_ne_nil ':' port.digits), front]
        rfl
      exact (port_plain port).2 (List.mem_of_getLast? last)

theorem hostPort_made (scheme : Bool) {host : List Char} (legal : isHost host = true) (port : Option Port)
    (suffix : Suffix) : hostPort (String.ofList (addressText scheme host port suffix)) = host ++ portText port := by
  have absent : '/' ∉ host ++ portText port := by
    intro member
    exact (List.mem_append.mp member).elim (host_no_slash legal) (portText_no_slash port)
  have text : (String.ofList (addressText scheme host port suffix)).toList = addressText scheme host port suffix :=
    String.toList_ofList
  rw [hostPort, text, addressText]
  cases scheme with
  | true =>
    rw [if_pos rfl, Uris.stripPrefix_append, Option.getD_some]
    exact splitNext_made absent suffix.path
  | false =>
    rw [if_neg Bool.false_ne_true, List.nil_append, unprefixed legal, Option.getD_none]
    exact splitNext_made absent suffix.path

theorem upstreamHostPort_port {upstream : String} {host : List Char} (legal : isHost host = true) {port : Port}
    (split : hostPort upstream = host ++ ':' :: port.digits) :
    upstreamHostPort upstream = .ok (String.ofList host, portValue port.digits) := by
  have parts := rsplitOnce_made host (port_plain port).2
  unfold hostPort at split
  unfold upstreamHostPort
  simp only [split, parts, parsePort_made, bind, Except.bind, if_neg (host_ne_nil legal)]

theorem upstreamHostPort_bare {upstream : String} {host : List Char} (legal : isHost host = true)
    (split : hostPort upstream = host) (bare : ':' ∉ host) :
    upstreamHostPort upstream = .ok (String.ofList host, 80) := by
  have parts : Text.rsplitOnce ':' host = none := if_neg bare
  unfold hostPort at split
  unfold upstreamHostPort
  simp only [split, parts, bind, Except.bind, if_neg (host_ne_nil legal)]

/-- Without a port a host with a colon is never read as it stands. -/
theorem upstreamHostPort_colon {upstream : String} {host : List Char} (split : hostPort upstream = host)
    (colon : ':' ∈ host) (port : Nat) : upstreamHostPort upstream ≠ .ok (String.ofList host, port) := by
  obtain ⟨before, behind, parts, -, found⟩ := rsplitOnce_found colon
  intro read
  unfold hostPort at split
  unfold upstreamHostPort at read
  simp only [split, found] at read
  cases parsed : Text.parseUint 16 behind with
  | error e =>
    rw [parsed] at read
    cases read
  | ok value =>
    simp only [parsed, bind, Except.bind] at read
    split at read
    · cases read
    · injection read with same
      have shorter := congrArg List.length (String.ofList_injective (congrArg Prod.fst same))
      rw [parts, List.length_append, List.length_cons] at shorter
      omega

/-- A well-formed address is read as it was written exactly when its port is written or no
    colon is in its host, which is no address in brackets then. -/
theorem address_read_iff (scheme : Bool) (host : List Char) (legal : isHost host = true) (port : Option Port)
    (suffix : Suffix) :
    upstreamHostPort (String.ofList (addressText scheme host port suffix)) =
        .ok (String.ofList host, port.elim 80 fun port => portValue port.digits) ↔
      port.isSome = true ∨ ':' ∉ host := by
  have split := hostPort_made scheme legal port suffix
  cases port with
  | some port => exact ⟨fun _ => .inl rfl, fun _ => upstreamHostPort_port legal split⟩
  | none =>
    rw [portText, Option.elim_none, List.append_nil] at split
    simp only [Option.elim_none, Option.isSome_none, Bool.false_eq_true, false_or]
    constructor
    · intro read colon
      exact upstreamHostPort_colon split colon 80 read
    · exact upstreamHostPort_bare legal split

/-- Colons and slashes in the path, and those of an address in brackets. -/
theorem address_read_iff_bracketed :
    upstreamHostPort "http://[2001:db8::1]:08080/a:1//b:2" = .ok ("[2001:db8::1]", 8080) :=
  (address_read_iff true "[2001:db8::1]".toList (by decide) (some ⟨"08080".toList, by decide, by decide, by decide⟩)
    ⟨"/a:1//b:2".toList, .inr rfl⟩).mpr (.inl rfl)

/-- An address in brackets that is written without a port is cut inside and rejected. -/
theorem address_cut :
    isHost "[::1]".toList = true ∧ addressText true "[::1]".toList none ⟨[], .inl rfl⟩ = "http://[::1]".toList ∧
      upstreamHostPort "http://[::1]" = .error "invalid digit found in string" := by decide

end Addresses
end Torana
