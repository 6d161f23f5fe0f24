import PersonRegistry.Person.Coding
import PersonRegistry.Proofs.Json.Texts

/-! Integers in decimal digits are read back, as long as the text does not go on like a number. -/

namespace PersonRegistry.Json

open Text (Octets)

-----------------------------------------------------------------------------------------
-- Decimal digits
-----------------------------------------------------------------------------------------

theorem toNat_bounds_of_isDigit {c : Char} (isDigit : c.isDigit) : 48 ≤ c.toNat ∧ c.toNat ≤ 57 := by
  simpa [Char.isDigit, UInt32.le_iff_toNat_le] using isDigit

theorem isDigit_of_mem_decimalDigits {n : Nat} {c : Char} (member : c ∈ Text.decimalDigits n)
    : c.isDigit :=
  Nat.isDigit_of_mem_toDigits (b := 10) (n := n) (by decide) (by decide) member

/-- A digit is one octet, and is read back. -/
theorem digit?_of_isDigit {c : Char} (isDigit : c.isDigit)
    : String.utf8EncodeChar c = [UInt8.ofNat c.toNat]
      ∧ digit? (UInt8.ofNat c.toNat) = some (c.toNat - '0'.toNat) := by
  have bounds := toNat_bounds_of_isDigit isDigit
  have value : (UInt8.ofNat c.toNat).toNat = c.toNat := by
    simp only [UInt8.toNat_ofNat']
    omega
  constructor
  · exact Text.Utf8.encodeChar_small (by omega)
  · have inRange : 0x30 ≤ UInt8.ofNat c.toNat ∧ UInt8.ofNat c.toNat ≤ 0x39 := by
      simp only [UInt8.le_iff_toNat_le, value]
      exact bounds
    simp only [digit?, inRange, decide_true, Bool.and_self, if_true, value]
    rfl

theorem le_ofDigitChars (digits : List Char) (start : Nat)
    : start ≤ Nat.ofDigitChars 10 digits start := by
  induction digits generalizing start with
  | nil => simp
  | cons c rest ih =>
      rw [Nat.ofDigitChars_cons]
      exact Nat.le_trans (by omega) (ih _)

/-- A positive number has no leading zero, by induction on its digits. -/
theorem head_decimalDigits {n : Nat} (positive : 0 < n)
    : ∃ c rest, Text.decimalDigits n = c :: rest ∧ c.isDigit ∧ c ≠ '0' := by
  induction n using Nat.strongRecOn with
  | _ n ih =>
      by_cases small : n < 10
      · refine ⟨n.digitChar, [], Nat.toDigits_of_lt_base small, ?_, ?_⟩
        · exact isDigit_of_mem_decimalDigits (n := n)
            (by simp [Text.decimalDigits, Nat.toDigits_of_lt_base small])
        · have value := Nat.toNat_digitChar_of_lt_ten small
          intro same
          rw [same] at value
          simp at value
          omega
      · obtain ⟨c, rest, digits, isDigit, nonzero⟩ := ih (n / 10) (by omega) (by omega)
        refine ⟨c, rest ++ [Nat.digitChar (n % 10)], ?_, isDigit, nonzero⟩
        rw [Text.decimalDigits, Nat.toDigits_of_base_le (by decide) (by omega),
          ← Text.decimalDigits, digits, List.cons_append]

/-- A text that does not go on with a number: no digit, point or exponent follows. -/
def EndsNumeral (rest : Octets) : Prop :=
  ∀ b more, rest = b :: more →
    isDigit b = false ∧ b ≠ Octet.point ∧ b ≠ Octet.letterE ∧ b ≠ Octet.capitalE

theorem startsWithDigit_of_ends {rest : Octets} (ends : EndsNumeral rest)
    : startsWithDigit rest = false := by
  cases rest with
  | nil => rfl
  | cons b more => exact (ends b more rfl).1

/-- Digits are taken until another octet comes, by induction on them. -/
theorem takeDigits_encode {digits : List Char} (all : ∀ c ∈ digits, c.isDigit)
    {rest : Octets} (stops : startsWithDigit rest = false) (significand taken : Nat)
    (fits : Nat.ofDigitChars 10 digits significand < 0x10000000000000000)
    : takeDigits significand taken (Text.Utf8.encode digits ++ rest)
      = (Nat.ofDigitChars 10 digits significand, taken + digits.length, rest) := by
  induction digits generalizing significand taken with
  | nil =>
      cases rest with
      | nil => rfl
      | cons b more =>
          have none : digit? b = none := by
            simpa [startsWithDigit, isDigit] using stops
          simp [takeDigits, none]
  | cons c more ih =>
      obtain ⟨one, value⟩ := digit?_of_isDigit (all c (by simp))
      rw [Nat.ofDigitChars_cons, Nat.mul_comm] at fits
      have small := Nat.lt_of_le_of_lt (le_ofDigitChars more _) fits
      rw [Text.Utf8.encode_cons, one, List.append_assoc, List.cons_append, List.nil_append,
        takeDigits, value]
      simp only [Nat.not_le.mpr small, if_false]
      rw [ih (fun c member => all c (by simp [member])) _ _ fits, Nat.ofDigitChars_cons,
        Nat.mul_comm, List.length_cons, Nat.add_assoc, Nat.add_comm 1]

-----------------------------------------------------------------------------------------
-- Integers
-----------------------------------------------------------------------------------------

/-- The number is over: what was read is whole. -/
theorem afterWhole_ends {rest : Octets} (ends : EndsNumeral rest) (positive : Bool)
    {significand : Nat} (fits : positive = true ∨ 0 < significand ∧ significand ≤ 0x8000000000000000)
    : afterWhole positive significand rest
      = .ok (.whole (if positive then (significand : Int) else -(significand : Int)), rest) := by
  have fits : positive = false → (decide (0 < significand)
      && decide (significand ≤ 0x8000000000000000)) = true := by
    intro negative
    simpa [negative] using fits
  rw [afterWhole, Reader.run_bind]
  cases rest with
  | nil => cases positive <;> simp [look, fits]
  | cons b more =>
      obtain ⟨-, noPoint, noE, noCapital⟩ := ends b more rfl
      cases positive
      all_goals
        simp only [look_cons, fits, Bool.false_eq_true, if_true, if_false]
        generalize same : some b = seen
        split
        next => exact absurd (Option.some.inj same) noPoint
        next => exact absurd (Option.some.inj same) noE
        next => exact absurd (Option.some.inj same) noCapital
        next => rfl

section

variable {rest : Octets} (stops : startsWithDigit rest = false) (positive : Bool)
include stops

theorem unsignedNumeral_zero
    : unsignedNumeral positive (Text.Utf8.encode ['0'] ++ rest) = afterWhole positive 0 rest := by
  have octets : Text.Utf8.encode ['0'] = [0x30] := rfl
  have value : digit? 0x30 = some 0 := rfl
  simp [octets, unsignedNumeral, value, stops]

/-- A whole part without a leading zero is taken as it stands, as long as it fits 64 bits. -/
theorem unsignedNumeral_digits {c : Char} {more : List Char} (all : ∀ d ∈ c :: more, d.isDigit)
    (nonzero : c ≠ '0') (fits : Nat.ofDigitChars 10 (c :: more) 0 < 0x10000000000000000)
    : unsignedNumeral positive (Text.Utf8.encode (c :: more) ++ rest)
      = afterWhole positive (Nat.ofDigitChars 10 (c :: more) 0) rest := by
  have noDigits : (rest.takeWhile isDigit).length = 0 := by
    cases rest with
    | nil => rfl
    | cons b more => rw [List.takeWhile_cons_of_neg (by simpa [startsWithDigit] using stops), List.length_nil]
  have isDigit := all c (by simp)
  obtain ⟨one, value⟩ := digit?_of_isDigit isDigit
  have first : c.toNat - '0'.toNat ≠ 0 := by
    have bounds := toNat_bounds_of_isDigit isDigit
    have other : c.toNat ≠ '0'.toNat := fun same => nonzero (Char.toNat_inj.mp same)
    have zero : '0'.toNat = 48 := rfl
    omega
  have others : ∀ d ∈ more, d.isDigit := fun d member => all d (by simp [member])
  rw [Nat.ofDigitChars_cons, Nat.mul_zero, Nat.zero_add] at fits ⊢
  have taken := takeDigits_encode others stops (c.toNat - '0'.toNat) 0 fits
  rw [Text.Utf8.encode_cons, one]
  simp only [unsignedNumeral, List.cons_append, List.nil_append, Reader.run_bind, look_cons,
    advance_cons, value]
  cases first' : c.toNat - '0'.toNat with
  | zero => exact absurd first' first
  | succ d =>
      rw [first'] at taken
      simp only [Reader.run_get, Reader.run_set, taken, noDigits, if_true, List.drop_zero]

end

/-- The digits of a number are read back, behind a minus or not. A minus in front of zero would make it
no whole number.
-/
theorem unsignedNumeral_decimalDigits {n : Nat} (fits : n < 0x10000000000000000) {rest : Octets}
    (ends : EndsNumeral rest) (positive : Bool) (sign : positive = true ∨ 0 < n ∧ n ≤ 0x8000000000000000)
    : unsignedNumeral positive (Text.Utf8.encode (Text.decimalDigits n) ++ rest)
      = .ok (.whole (if positive then (n : Int) else -(n : Int)), rest) := by
  have stops := startsWithDigit_of_ends ends
  rw [← afterWhole_ends ends positive sign]
  rcases Nat.eq_zero_or_pos n with rfl | above
  · exact unsignedNumeral_zero stops positive
  · obtain ⟨c, more, digits, -, nonzero⟩ := head_decimalDigits above
    have all : ∀ d ∈ c :: more, d.isDigit := fun d member =>
      isDigit_of_mem_decimalDigits (n := n) (digits ▸ member)
    have whole : Nat.ofDigitChars 10 (c :: more) 0 = n := by
      rw [← digits]
      exact Nat.ofDigitChars_ten_toDigits
    rw [digits, unsignedNumeral_digits stops positive all nonzero (by rw [whole]; exact fits), whole]

/-- An octet that a number starts with is a token, and not the first letter of a word. -/
theorem solid_of_startsNumeral {b : UInt8} (starts : startsNumeral b = true)
    : isSpace b = false ∧ b ≠ Octet.letterN := by
  rw [startsNumeral, Bool.or_eq_true, decide_eq_true_eq] at starts
  rcases starts with rfl | isDigit
  · exact ⟨rfl, by decide⟩
  · have inRange : 0x30 ≤ b ∧ b ≤ 0x39 := by
      by_cases inside : 0x30 ≤ b ∧ b ≤ 0x39
      · exact inside
      · simp [Json.isDigit, digit?, inside] at isDigit
    simp only [UInt8.le_iff_toNat_le] at inRange
    have least : (0x30 : UInt8).toNat = 48 := rfl
    have most : (0x39 : UInt8).toNat = 57 := rfl
    constructor
    · simp only [isSpace, ← UInt8.toNat_inj]
      simp
      omega
    · intro same
      have letter : Octet.letterN.toNat = 110 := rfl
      rw [same] at inRange
      omega

/-- The digits of a number are not empty, and the first is one octet. -/
theorem encode_decimalDigits_eq_cons (n : Nat)
    : ∃ c more, Text.decimalDigits n = c :: more
      ∧ Text.Utf8.encode (Text.decimalDigits n)
        = UInt8.ofNat c.toNat :: Text.Utf8.encode more
      ∧ Json.isDigit (UInt8.ofNat c.toNat) = true
      ∧ UInt8.ofNat c.toNat ≠ Octet.minus := by
  cases digits : Text.decimalDigits n with
  | nil => exact absurd digits Nat.toDigits_ne_nil
  | cons c more =>
      have isDigit : c.isDigit = true := isDigit_of_mem_decimalDigits (n := n) (by simp [digits])
      obtain ⟨one, value⟩ := digit?_of_isDigit isDigit
      have bounds := toNat_bounds_of_isDigit isDigit
      refine ⟨c, more, rfl, ?_, by simp [Json.isDigit, value], fun same => ?_⟩
      · rw [Text.Utf8.encode_cons, one, List.cons_append, List.nil_append]
      · have value := congrArg UInt8.toNat same
        simp only [UInt8.toNat_ofNat'] at value
        have minus : Octet.minus.toNat = 45 := rfl
        omega

/-- The text of an integer starts like a number. -/
theorem encode_printInt32_eq_cons (n : Int32)
    : ∃ b more, Text.Utf8.encode (printInt32 n) = b :: more ∧ startsNumeral b = true := by
  rw [printInt32, Text.decimalInteger]
  by_cases negative : n.toInt < 0
  · refine ⟨Octet.minus, Text.Utf8.encode (Text.decimalDigits n.toInt.natAbs), ?_, rfl⟩
    rw [if_pos negative]
    rfl
  · obtain ⟨c, more, -, octets, isDigit, -⟩ := encode_decimalDigits_eq_cons n.toInt.natAbs
    exact ⟨_, _, by rw [if_neg negative, octets], by simp [startsNumeral, isDigit]⟩

theorem signed32_printInt32 (n : Int32) {rest : Octets} (ends : EndsNumeral rest)
    : signed32 (Text.Utf8.encode (printInt32 n) ++ rest) = .ok (n, rest) := by
  have least := n.le_toInt
  have most := n.toInt_lt
  have holds : Text.IntegerRange.signed32.holds n.toInt = true := by
    have bounds : -(0x80000000 : Int) ≤ n.toInt ∧ n.toInt ≤ 0x7fffffff := by omega
    rw [Text.IntegerRange.holds, Bool.and_eq_true]
    exact ⟨decide_eq_true bounds.1, decide_eq_true bounds.2⟩
  have integer : integer .signed32 .signed32 (Text.Utf8.encode (printInt32 n) ++ rest)
      = .ok (n.toInt, rest) := by
    rw [printInt32, Text.decimalInteger]
    by_cases negative : n.toInt < 0
    · have octets : Text.Utf8.encode ('-' :: Text.decimalDigits n.toInt.natAbs)
          = Octet.minus :: Text.Utf8.encode (Text.decimalDigits n.toInt.natAbs) := rfl
      have starts : startsNumeral Octet.minus = true := rfl
      obtain ⟨solid, -⟩ := solid_of_startsNumeral starts
      have magnitude : -(n.toInt.natAbs : Int) = n.toInt := by omega
      have read := unsignedNumeral_decimalDigits (n := n.toInt.natAbs) (by omega) ends false
        (.inr ⟨by omega, by omega⟩)
      simp only [Bool.false_eq_true, if_false, magnitude] at read
      rw [if_pos negative, octets]
      simp [Json.integer, numeralAs, valueStart_cons solid, starts, numeral, read, holds]
    · obtain ⟨c, more, -, octets, isDigit, noMinus⟩ :=
        encode_decimalDigits_eq_cons n.toInt.natAbs
      have starts : startsNumeral (UInt8.ofNat c.toNat) = true := by
        simp [startsNumeral, isDigit]
      obtain ⟨solid, -⟩ := solid_of_startsNumeral starts
      have magnitude : (n.toInt.natAbs : Int) = n.toInt := by omega
      have read := unsignedNumeral_decimalDigits (n := n.toInt.natAbs) (by omega) ends true
        (.inl rfl)
      simp only [if_true, magnitude] at read
      rw [if_neg negative]
      rw [octets, List.cons_append] at read ⊢
      simp [Json.integer, numeralAs, valueStart_cons solid, starts, numeral, noMinus, read, holds]
  simp [signed32, integer]

end PersonRegistry.Json
