import PersonRegistry.Proofs.Json.Skipping
import PersonRegistry.Proofs.Number.Rereading

/-! Printed numbers are read back: integers of 64 bits as themselves, and every decimal as the significand
and the exponent that its text spells.
-/

namespace PersonRegistry.Json

open Text (Octets)
open Binary64 (Decimal)

-----------------------------------------------------------------------------------------
-- The parts of a number
-----------------------------------------------------------------------------------------

section

variable {rest : Octets} (positive : Bool) (significand : Nat) (start : Int)

theorem afterDigits_ends (ends : EndsNumeral rest)
    : afterDigits positive significand start rest = scaledNumeral positive significand start rest := by
  rw [afterDigits, Reader.run_bind]
  cases rest with
  | nil => rfl
  | cons b more =>
      obtain ⟨-, -, noE, noCapital⟩ := ends b more rfl
      rw [look_cons]
      simp only
      generalize same : some b = seen
      split
      next => exact absurd (Option.some.inj same) noE
      next => exact absurd (Option.some.inj same) noCapital
      next => rfl

/-- The digits of an exponent are added up, by induction on them. -/
theorem exponentDigits_encode {digits : List Char} (all : ∀ c ∈ digits, c.isDigit) (ends : EndsNumeral rest)
    (upwards : Bool) {size : Nat} (fits : Nat.ofDigitChars 10 digits size < 0x80000000)
    : exponentDigits positive significand start upwards size (Text.Utf8.encode digits ++ rest)
      = scaledNumeral positive significand
          (if upwards then start + Nat.ofDigitChars 10 digits size
            else start - Nat.ofDigitChars 10 digits size) rest := by
  induction digits generalizing size with
  | nil =>
      cases rest with
      | nil => rfl
      | cons b more =>
          have none : digit? b = none := by simpa [isDigit] using (ends b more rfl).1
          simp [exponentDigits, none]
  | cons c more ih =>
      obtain ⟨one, value⟩ := digit?_of_isDigit (all c (by simp))
      rw [Nat.ofDigitChars_cons, Nat.mul_comm] at fits ⊢
      have small := Nat.lt_of_le_of_lt (le_ofDigitChars more _) fits
      rw [Text.Utf8.encode_cons, one, List.append_assoc, List.cons_append, List.nil_append,
        exponentDigits, value]
      simp only [Nat.not_le.mpr small, if_false]
      exact ih (fun c member => all c (by simp [member])) fits

/-- An exponent changes the power of ten by the number written behind its letter. -/
theorem afterDigits_exponent (ends : EndsNumeral rest) {power : Int} (small : power.natAbs < 0x80000000)
    : afterDigits positive significand start
        (Text.Utf8.encode
            ('e' :: (if power < 0 then '-' else '+') :: Text.decimalDigits power.natAbs) ++ rest)
      = scaledNumeral positive significand (start + power) rest := by
  obtain ⟨c, more, digits⟩ := List.exists_cons_of_ne_nil (Nat.toDigits_ne_nil (n := power.natAbs) (b := 10))
  have digits : Text.decimalDigits power.natAbs = c :: more := digits
  have all : ∀ d ∈ c :: more, d.isDigit := fun d member =>
    isDigit_of_mem_decimalDigits (n := power.natAbs) (digits ▸ member)
  obtain ⟨one, value⟩ := digit?_of_isDigit (all c (by simp))
  have size : Nat.ofDigitChars 10 more (c.toNat - '0'.toNat) = power.natAbs := by
    have read := Nat.ofDigitChars_ten_toDigits (n := power.natAbs)
    rwa [← Text.decimalDigits, digits, Nat.ofDigitChars_cons, Nat.mul_zero, Nat.zero_add] at read
  have read (upwards : Bool) := exponentDigits_encode positive significand start
    (fun d member => all d (List.mem_cons_of_mem _ member)) ends upwards (size.symm ▸ small)
  have spelled (sign : Char) (b : UInt8) (sole : String.utf8EncodeChar sign = [b])
      : Text.Utf8.encode ('e' :: sign :: c :: more) ++ rest
        = Octet.letterE :: b :: UInt8.ofNat c.toNat :: (Text.Utf8.encode more ++ rest) := by
    simp only [Text.Utf8.encode_cons, sole, one]
    rfl
  have signed (b : UInt8) (upwards : Bool)
      (signs : ∀ octets, exponentSign (b :: octets) = .ok (upwards, octets))
      : afterDigits positive significand start
          (Octet.letterE :: b :: UInt8.ofNat c.toNat :: (Text.Utf8.encode more ++ rest))
        = exponentDigits positive significand start upwards (c.toNat - '0'.toNat)
            (Text.Utf8.encode more ++ rest) := by
    have letter (octets : Octets) : afterDigits positive significand start (Octet.letterE :: octets)
        = exponentPart positive significand start (Octet.letterE :: octets) := rfl
    simp only [letter, exponentPart, Reader.run_bind, advance_cons, signs, look_cons, value]
  rw [digits]
  split
  next negative =>
    rw [spelled _ Octet.minus rfl, signed Octet.minus false fun _ => rfl, read, size, if_neg (by decide)]
    congr 1
    omega
  next =>
    rw [spelled _ Octet.plus rfl, signed Octet.plus true fun _ => rfl, read, size, if_pos rfl]
    congr 1
    omega

variable {whole digits : List Char} (stops : startsWithDigit rest = false)
include stops

/-- The digits behind a point belong to the significand, and lower the power of ten by one each. -/
theorem fractionPart_encode (some : digits ≠ []) (all : ∀ c ∈ digits, c.isDigit)
    (fits : Nat.ofDigitChars 10 digits significand < 0x10000000000000000)
    : fractionPart positive significand start (Text.Utf8.encode ('.' :: digits) ++ rest)
      = afterDigits positive (Nat.ofDigitChars 10 digits significand) (start - digits.length) rest := by
  have taken := takeDigits_encode all stops significand 0 fits
  have point : Text.Utf8.encode ('.' :: digits) ++ rest
      = Octet.point :: (Text.Utf8.encode digits ++ rest) := rfl
  have count : digits.length ≠ 0 := by simpa using some
  have dropped : rest.dropWhile isDigit = rest := by
    cases rest with
    | nil => rfl
    | cons b more => exact List.dropWhile_cons_of_neg (by simpa [startsWithDigit] using stops)
  rw [Nat.zero_add] at taken
  rw [point, fractionPart]
  simp only [Reader.run_bind, advance_cons, Reader.run_get, taken, Reader.run_set, count, decide_false,
    Bool.false_and, Bool.false_eq_true, if_false, dropped]

theorem unsignedNumeral_whole (isWhole : IsWhole whole)
    (fits : Nat.ofDigitChars 10 whole 0 < 0x10000000000000000)
    : unsignedNumeral positive (Text.Utf8.encode whole ++ rest)
      = afterWhole positive (Nat.ofDigitChars 10 whole 0) rest := by
  cases isWhole with
  | zero => exact unsignedNumeral_zero stops positive
  | digits nonzero all => exact unsignedNumeral_digits stops positive all nonzero fits

/-- The digits on both sides of a point make up the significand. -/
theorem unsignedNumeral_fraction (isWhole : IsWhole whole) (some : digits ≠ [])
    (all : ∀ c ∈ digits, c.isDigit)
    (fits : Nat.ofDigitChars 10 (whole ++ digits) 0 < 0x10000000000000000)
    : unsignedNumeral positive (Text.Utf8.encode (whole ++ '.' :: digits) ++ rest)
      = afterDigits positive (Nat.ofDigitChars 10 (whole ++ digits) 0) (-(digits.length : Int)) rest := by
  rw [Nat.ofDigitChars_append] at fits ⊢
  have first := Nat.lt_of_le_of_lt (le_ofDigitChars digits _) fits
  have point : startsWithDigit (Text.Utf8.encode ('.' :: digits) ++ rest) = false := rfl
  have behind (significand : Nat) : afterWhole positive significand (Text.Utf8.encode ('.' :: digits) ++ rest)
      = fractionPart positive significand 0 (Text.Utf8.encode ('.' :: digits) ++ rest) := rfl
  rw [Text.Utf8.encode_append, List.append_assoc, unsignedNumeral_whole positive point isWhole first, behind,
    fractionPart_encode positive _ 0 stops some all fits, Int.zero_sub]

end

-----------------------------------------------------------------------------------------
-- Decimals
-----------------------------------------------------------------------------------------

section

variable (positive : Bool)

theorem ofDigitChars_decimalDigits (n : Nat) : Nat.ofDigitChars 10 (Text.decimalDigits n) 0 = n :=
  Nat.ofDigitChars_ten_toDigits

/-- With a point after its first digit and an exponent, a number is read as it is without the point. -/
theorem unsignedNumeral_pointAfterFirst {n : Nat} (fits : n < 0x10000000000000000) (octets : Octets)
    : unsignedNumeral positive
          (Text.Utf8.encode (Binary64.pointAfterFirst (Text.decimalDigits n)) ++ Octet.letterE :: octets)
      = afterDigits positive n (1 - ((Text.decimalDigits n).length : Int)) (Octet.letterE :: octets) := by
  have value := ofDigitChars_decimalDigits n
  have letter : startsWithDigit (Octet.letterE :: octets) = false := rfl
  match digits : Text.decimalDigits n with
  | [] => exact absurd digits Nat.toDigits_ne_nil
  | [c] =>
      have whole : IsWhole [c] := digits ▸ isWhole_decimalDigits n
      rw [digits] at value
      exact (unsignedNumeral_whole positive letter whole (value.symm ▸ fits)).trans (by rw [value]; rfl)
  | c :: d :: more =>
      have above : 0 < n := by
        refine Nat.pos_of_ne_zero fun zero => ?_
        rw [zero] at digits
        cases digits
      have whole : IsWhole [c] := by
        have first := isWhole_take above Nat.one_pos
        rwa [digits] at first
      have all : ∀ e ∈ d :: more, e.isDigit := fun e member =>
        isDigit_of_mem_decimalDigits (n := n) (digits ▸ List.mem_cons_of_mem c member)
      have read := unsignedNumeral_fraction positive letter whole (List.cons_ne_nil d more) all
      rw [List.singleton_append, ← digits, value] at read
      have places : (1 : Int) - ((c :: d :: more).length : Int) = -((d :: more).length : Int) := by
        rw [List.length_cons]
        omega
      rw [places]
      exact read fits

variable {rest : Octets} (ends : EndsNumeral rest)
include ends

/-- In powers of ten, a number is read as it is without the point, however many digits stand behind it. -/
theorem unsignedNumeral_scientific {n : Nat} (fits : n < 0x10000000000000000) {power : Int}
    (small : power.natAbs < 0x80000000)
    : unsignedNumeral positive
        (Text.Utf8.encode (Binary64.pointAfterFirst (Text.decimalDigits n)
            ++ 'e' :: (if power < 0 then '-' else '+') :: Text.decimalDigits power.natAbs) ++ rest)
      = scaledNumeral positive n (1 - ((Text.decimalDigits n).length : Int) + power) rest := by
  rw [← afterDigits_exponent positive n _ ends small, Text.Utf8.encode_append, List.append_assoc]
  exact unsignedNumeral_pointAfterFirst positive fits _

/-- With a point inside, the digits are read as one number, and those behind the point are counted. -/
theorem unsignedNumeral_positional {whole digits : List Char} {significand : Nat}
    (isWhole : IsWhole whole) (some : digits ≠ []) (all : ∀ c ∈ digits, c.isDigit)
    (value : Nat.ofDigitChars 10 (whole ++ digits) 0 = significand)
    (fits : significand < 0x10000000000000000)
    : unsignedNumeral positive (Text.Utf8.encode (whole ++ '.' :: digits) ++ rest)
      = scaledNumeral positive significand (-(digits.length : Int)) rest := by
  rw [← afterDigits_ends positive significand _ ends]
  subst value
  exact unsignedNumeral_fraction positive (startsWithDigit_of_ends ends) isWhole some all fits

section Layouts

variable {n : Nat}

/-- Zeros behind a whole number raise it, the one behind its point among them. -/
theorem unsignedNumeral_trailingZeros {count : Nat} (proper : n = 0 → count = 0)
    (fits : n * 10 ^ (count + 1) < 0x10000000000000000)
    : unsignedNumeral positive
        (Text.Utf8.encode (Text.decimalDigits n ++ List.replicate count '0' ++ '.' :: ['0']) ++ rest)
      = scaledNumeral positive (n * 10 ^ (count + 1)) (-1) rest := by
  have value : Nat.ofDigitChars 10 ((Text.decimalDigits n ++ List.replicate count '0') ++ ['0']) 0
      = n * 10 ^ (count + 1) := by
    have zeros := List.replicate_succ' (n := count) (a := '0')
    rw [List.append_assoc, ← zeros, Nat.ofDigitChars_append, ofDigitChars_decimalDigits,
      Nat.ofDigitChars_replicate_zero, Nat.mul_comm]
  exact unsignedNumeral_positional positive ends (isWhole_zeros proper) (List.cons_ne_nil _ _) (by simp)
    value fits

/-- A point among the digits leaves the number, and counts those behind it. -/
theorem unsignedNumeral_pointInside {count : Nat} (above : 0 < n) (some : 0 < count)
    (inside : count < (Text.decimalDigits n).length) (fits : n < 0x10000000000000000)
    : unsignedNumeral positive
        (Text.Utf8.encode ((Text.decimalDigits n).take count ++ '.' :: (Text.decimalDigits n).drop count)
          ++ rest)
      = scaledNumeral positive n (count - (Text.decimalDigits n).length) rest := by
  have behind : (Text.decimalDigits n).drop count ≠ [] := by
    rw [Ne, List.drop_eq_nil_iff]
    omega
  have places : -(((Text.decimalDigits n).drop count).length : Int)
      = count - (Text.decimalDigits n).length := by
    rw [List.length_drop]
    omega
  have value : Nat.ofDigitChars 10 ((Text.decimalDigits n).take count ++ (Text.decimalDigits n).drop count) 0
      = n := by
    rw [List.take_append_drop, ofDigitChars_decimalDigits]
  rw [← places]
  exact unsignedNumeral_positional positive ends (isWhole_take above some) behind
    (fun c member => isDigit_of_mem_decimalDigits (List.mem_of_mem_drop member)) value fits

/-- Zeros between the point and the digits leave the number, and count as places. -/
theorem unsignedNumeral_leadingZeros (count : Nat) (fits : n < 0x10000000000000000)
    : unsignedNumeral positive
        (Text.Utf8.encode ('0' :: '.' :: (List.replicate count '0' ++ Text.decimalDigits n)) ++ rest)
      = scaledNumeral positive n (-(count + (Text.decimalDigits n).length : Int)) rest := by
  have places : ((List.replicate count '0' ++ Text.decimalDigits n).length : Int)
      = count + (Text.decimalDigits n).length := by
    rw [List.length_append, List.length_replicate, Int.natCast_add]
  have value : Nat.ofDigitChars 10 (['0'] ++ (List.replicate count '0' ++ Text.decimalDigits n)) 0 = n := by
    rw [List.singleton_append, Nat.ofDigitChars_cons, Nat.ofDigitChars_append,
      Nat.ofDigitChars_replicate_zero]
    exact ofDigitChars_decimalDigits n
  rw [← places]
  exact unsignedNumeral_positional positive ends .zero
    (List.append_ne_nil_of_right_ne_nil (List.replicate count '0') Nat.toDigits_ne_nil)
    (fun c member => (List.mem_append.mp member).elim isDigit_of_mem_replicate isDigit_of_mem_decimalDigits)
    value fits

end Layouts

/-- A decimal is read as it is spelled, by cases on where the point stands. -/
theorem unsignedNumeral_text {x : Decimal} (fits : x.digits < 0x10000000000000000)
    (proper : x.digits = 0 → x.exponent ≤ 0) (least : -0x10000000 ≤ x.exponent)
    (most : x.exponent ≤ 0x10000000)
    : unsignedNumeral positive (Text.Utf8.encode x.text ++ rest)
      = scaledNumeral positive x.spelled.digits x.spelled.exponent rest := by
  have digitsOf : Nat.toDigits 10 x.digits = Text.decimalDigits x.digits := rfl
  have some : 0 < (Text.decimalDigits x.digits).length := List.length_pos_iff.mpr Nat.toDigits_ne_nil
  have few := Decimal.spelled_digits_lt fits
  rw [Decimal.spelled, digitsOf] at few ⊢
  rw [Decimal.text, digitsOf]
  by_cases whole : 0 ≤ x.exponent
      ∧ x.exponent + (Text.decimalDigits x.digits).length - 1 < Binary64.plainBelow
  · have plain : Binary64.plainFrom ≤ x.exponent + (Text.decimalDigits x.digits).length - 1 := by
      rw [Binary64.plainFrom]
      omega
    rw [if_pos whole] at few ⊢
    rw [if_pos (by simp [plain, whole.2]), if_pos whole.1]
    exact unsignedNumeral_trailingZeros positive ends (by omega) few
  rw [if_neg whole]
  split
  next plain =>
    have downwards : ¬0 ≤ x.exponent := by
      simp only [Bool.and_eq_true, decide_eq_true_eq] at plain
      exact fun upwards => whole ⟨upwards, plain.2⟩
    rw [if_neg downwards]
    split
    next inside =>
      have above : 0 < x.digits := by
        refine Nat.pos_of_ne_zero fun zero => ?_
        have one : (Text.decimalDigits 0).length = 1 := rfl
        rw [zero, one] at inside
        omega
      generalize places : (x.exponent + (Text.decimalDigits x.digits).length - 1).toNat + 1 = count
      have exponent : (count - (Text.decimalDigits x.digits).length : Int) = x.exponent := by omega
      rw [unsignedNumeral_pointInside positive ends above (by omega) (by omega) fits, exponent]
    next before =>
      generalize places : (-(x.exponent + (Text.decimalDigits x.digits).length - 1) - 1).toNat = count
      have exponent : -(count + (Text.decimalDigits x.digits).length : Int) = x.exponent := by omega
      have read := unsignedNumeral_leadingZeros positive ends count fits
      rw [exponent] at read
      exact read
  next scientific =>
    have places : (Text.decimalDigits x.digits).length ≤ 20 :=
      (Nat.length_toDigits_le_iff (by decide) (by decide)).mpr (Nat.lt_trans fits (by decide))
    generalize same : x.exponent + (Text.decimalDigits x.digits).length - 1 = power
    have exponent : 1 - ((Text.decimalDigits x.digits).length : Int) + power = x.exponent := by omega
    have read := unsignedNumeral_scientific positive ends fits (by omega : power.natAbs < 0x80000000)
    rw [exponent] at read
    exact read

end

-----------------------------------------------------------------------------------------
-- Printed numbers
-----------------------------------------------------------------------------------------

/-- The characters are read as the number, whatever ends it. -/
def Spells (chars : List Char) (n : Numeral) : Prop :=
  ∃ b octets, Text.Utf8.encode chars = b :: octets ∧ startsNumeral b = true
    ∧ ∀ rest, EndsNumeral rest → numeral b (b :: octets ++ rest) = .ok (n, rest)

variable {chars : List Char} {n : Numeral}

theorem spells_unsigned (isUnsigned : IsUnsigned chars)
    (reads : ∀ rest, EndsNumeral rest →
      unsignedNumeral true (Text.Utf8.encode chars ++ rest) = .ok (n, rest))
    : Spells chars n := by
  obtain ⟨b, octets, start, isDigit⟩ := encode_unsigned_eq_cons isUnsigned
  have noMinus : b ≠ Octet.minus := by
    rintro rfl
    cases isDigit
  refine ⟨b, octets, start, by simp [startsNumeral, isDigit], fun rest ends => ?_⟩
  rw [numeral, if_neg noMinus, ← start]
  exact reads rest ends

theorem spells_minus
    (reads : ∀ rest, EndsNumeral rest →
      unsignedNumeral false (Text.Utf8.encode chars ++ rest) = .ok (n, rest))
    : Spells ('-' :: chars) n :=
  ⟨Octet.minus, Text.Utf8.encode chars, rfl, rfl, reads⟩

/-- An integer of 64 bits, with a sign or without one, is read back. -/
theorem spells_integer {n : Int} (least : -0x8000000000000000 ≤ n) (most : n < 0x10000000000000000)
    : Spells (Text.decimalInteger n) (.whole n) := by
  rw [Text.decimalInteger]
  split
  next negative =>
    have magnitude : -(n.natAbs : Int) = n := by omega
    refine spells_minus fun rest ends => ?_
    rw [unsignedNumeral_decimalDigits (by omega) ends false (.inr ⟨by omega, by omega⟩),
      if_neg (by decide), magnitude]
  next =>
    have magnitude : (n.natAbs : Int) = n := by omega
    refine spells_unsigned (isUnsigned_decimalDigits _) fun rest ends => ?_
    rw [unsignedNumeral_decimalDigits (by omega) ends true (.inl rfl), if_pos rfl, magnitude]

/-- Every number is read back from its shortest decimal. -/
theorem spells_float (x : Binary64) : Spells x.text (.float x.reread) := by
  obtain ⟨y, some⟩ := Option.isSome_iff_exists.mp x.scaled?_spelled
  have read (positive : Bool) (negative : x.negative = !positive) (rest : Octets) (ends : EndsNumeral rest)
      : unsignedNumeral positive (Text.Utf8.encode x.shortest.text ++ rest)
        = .ok (.float x.reread, rest) := by
    have small : 40 * Binary64.binade < 0x10000000000000000 := by decide
    have bounds := x.shortest_exponent_bounds
    rw [unsignedNumeral_text positive ends (Nat.lt_of_le_of_lt x.shortest_digits_le small)
      x.shortest_proper (by omega) (by omega), scaledNumeral, Binary64.reread, some, negative]
    rfl
  rw [Binary64.text]
  split
  next negative => exact spells_minus (read false negative)
  next positive =>
    exact spells_unsigned (x.shortest.isUnsigned_text x.shortest_proper)
      (read true (Bool.eq_false_iff.mpr positive))

end PersonRegistry.Json
