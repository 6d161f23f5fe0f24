import PersonRegistry.Json.Skip
import PersonRegistry.Proofs.Json.Numerals

/-! Printed values that are neither lists nor objects are passed over when nobody asks for them. -/

namespace PersonRegistry.Json

open Text (Octets)

-----------------------------------------------------------------------------------------
-- Texts
-----------------------------------------------------------------------------------------

/-- Plain octets are passed over one by one, by induction on them. -/
theorem skipContents_plain {octets : Octets} (plain : ∀ b ∈ octets, isPlain b) (rest : Octets)
    : skipContents 0 (octets ++ rest) = skipContents 0 rest := by
  induction octets with
  | nil => rfl
  | cons b more ih =>
      obtain ⟨noQuote, noBackslash, noControl⟩ := plain b (by simp)
      rw [List.cons_append, skipContents, if_neg noQuote, if_neg noBackslash, if_neg noControl,
        ih fun next member => plain next (by simp [member])]

theorem skipContents_pass (octets rest : Octets)
    : skipContents octets.length (octets ++ rest) = skipContents 0 rest := by
  induction octets with
  | nil => rfl
  | cons b more ih => simpa [skipContents] using ih

theorem skipContents_escape {octets rest : Octets} (spelled : skipEscape (octets ++ rest) = .ok rest)
    : skipContents 0 (Octet.backslash :: octets ++ rest) = skipContents 0 rest := by
  have passed : (octets ++ rest).length - rest.length = octets.length := by simp
  rw [List.cons_append, skipContents, if_neg (by decide), if_pos rfl, spelled]
  simp only [passed, skipContents_pass]

theorem skipContents_printChar (c : Char) (rest : Octets)
    : skipContents 0 (Text.Utf8.encode (printChar c) ++ rest) = skipContents 0 rest := by
  have short {letter : Char} {b : UInt8} (one : String.utf8EncodeChar letter = [b])
      (spelled : skipEscape ([b] ++ rest) = .ok rest)
      : skipContents 0 (Text.Utf8.encode ['\\', letter] ++ rest) = skipContents 0 rest := by
    have start : Text.Utf8.encode ['\\', letter] = Octet.backslash :: [b] := by
      simp only [Text.Utf8.encode_cons, Text.Utf8.encode_nil, one]
      rfl
    rw [start, skipContents_escape spelled]
  unfold printChar
  split
  case h_8 noQuote noBackslash _ _ _ _ _ =>
    split
    next control =>
      obtain ⟨octets, spelled, reads⟩ := hexEscape_codeEscapeOf control rest
      have passed : skipEscape (Octet.letterU :: octets ++ rest)
          = (hexEscape (octets ++ rest)).map (·.2) := rfl
      rw [spelled, skipContents_escape (by rw [passed, reads]; rfl)]
    next noControl =>
      have one : Text.Utf8.encode [c] = String.utf8EncodeChar c := by simp
      rw [one]
      exact skipContents_plain
        (fun b member => isPlain_of_mem_encodeChar noQuote noBackslash noControl member) rest
  all_goals exact short rfl rfl

/-- A printed text is passed over up to its closing quote, by induction on its characters. -/
theorem skipText_printed (s : String) (rest : Octets)
    : skipText (printedBody s ++ rest) = .ok ((), rest) := by
  have characters (chars : List Char) (rest : Octets)
      : skipContents 0 (Text.Utf8.encode (chars.flatMap printChar) ++ rest)
        = skipContents 0 rest := by
    induction chars with
    | nil => rfl
    | cons c more ih =>
        rw [List.flatMap_cons, Text.Utf8.encode_append, List.append_assoc, skipContents_printChar, ih]
  rw [skipText, printedBody, List.append_assoc, characters]
  rfl

-----------------------------------------------------------------------------------------
-- Numbers
-----------------------------------------------------------------------------------------

variable {digits : List Char} {rest : Octets}

theorem isDigit_of_mem_encode (all : ∀ c ∈ digits, c.isDigit) {b : UInt8}
    (member : b ∈ Text.Utf8.encode digits)
    : isDigit b := by
  obtain ⟨c, among, spells⟩ := List.mem_flatMap.mp member
  obtain ⟨one, value⟩ := digit?_of_isDigit (all c among)
  rw [one, List.mem_singleton] at spells
  rw [spells, isDigit, value]
  rfl

theorem skipDigits_encode (all : ∀ c ∈ digits, c.isDigit) (ends : startsWithDigit rest = false)
    : skipDigits (Text.Utf8.encode digits ++ rest) = .ok ((), rest) := by
  have dropped : (Text.Utf8.encode digits ++ rest).dropWhile isDigit = rest := by
    rw [List.dropWhile_append_of_pos fun b => isDigit_of_mem_encode all]
    cases rest with
    | nil => rfl
    | cons b more => exact List.dropWhile_cons_of_neg (by simpa [startsWithDigit] using ends)
  rw [skipDigits, dropped]

theorem encode_cons_of_isDigit {c : Char} (isDigit : c.isDigit) (more : List Char)
    : ∃ b, Text.Utf8.encode (c :: more) = b :: Text.Utf8.encode more ∧ Json.isDigit b = true
      ∧ (c ≠ '0' → b ≠ Octet.zero) := by
  obtain ⟨one, value⟩ := digit?_of_isDigit isDigit
  have bounds := toNat_bounds_of_isDigit isDigit
  refine ⟨UInt8.ofNat c.toNat, ?_, by simp [Json.isDigit, value], fun nonzero same => nonzero ?_⟩
  · rw [Text.Utf8.encode_cons, one, List.cons_append, List.nil_append]
  · have code := congrArg UInt8.toNat same
    have zero : Octet.zero.toNat = '0'.toNat := rfl
    rw [UInt8.toNat_ofNat', Nat.mod_eq_of_lt (by omega), zero] at code
    exact Char.toNat_inj.mp code

/-- A digit is no sign. -/
theorem exponentSign_digit {b : UInt8} (isDigit : Json.isDigit b = true) (octets : Octets)
    : exponentSign (b :: octets) = .ok (true, b :: octets) := by
  rw [exponentSign, Reader.run_bind, look_cons]
  simp only
  generalize same : some b = seen
  split
  next => exact absurd isDigit (by rw [Option.some.inj same]; decide)
  next => exact absurd isDigit (by rw [Option.some.inj same]; decide)
  next => rfl

section

variable {whole fraction exponent : List Char} (ends : EndsNumeral rest)
include ends

theorem startsWithDigit_exponent (isExponent : IsExponent exponent)
    : startsWithDigit (Text.Utf8.encode exponent ++ rest) = false := by
  cases isExponent with
  | none => exact startsWithDigit_of_ends ends
  | digits lettered => rcases lettered with rfl | rfl <;> rfl

theorem startsWithDigit_fraction (isFraction : IsFraction fraction)
    (isExponent : IsExponent exponent)
    : startsWithDigit (Text.Utf8.encode (fraction ++ exponent) ++ rest) = false := by
  cases isFraction with
  | none => exact startsWithDigit_exponent ends isExponent
  | digits => rfl

theorem skipOptionalExponent_encode (isExponent : IsExponent exponent)
    : skipOptionalExponent (Text.Utf8.encode exponent ++ rest) = .ok ((), rest) := by
  cases isExponent with
  | none =>
      rw [Text.Utf8.encode_nil, List.nil_append, skipOptionalExponent, Reader.run_bind]
      cases rest with
      | nil => rfl
      | cons b more =>
          obtain ⟨-, -, noE, noCapital⟩ := ends b more rfl
          rw [look_cons]
          simp only
          generalize same : some b = seen
          split
          next => exact absurd (Option.some.inj same) noE
          next => exact absurd (Option.some.inj same) noCapital
          next => rfl
  | digits lettered signed all =>
      next letter c sign more =>
      obtain ⟨b, octets, isDigit, -⟩ := encode_cons_of_isDigit (all c (by simp)) more
      have skipped : skipDigits (Text.Utf8.encode more ++ rest) = .ok ((), rest) :=
        skipDigits_encode (fun d member => all d (by simp [member])) (startsWithDigit_of_ends ends)
      have behind (octets : Octets)
          : skipExponent (Octet.letterE :: (Text.Utf8.encode sign ++ b :: octets))
            = (if Json.isDigit b then skipDigits else fail .invalidNumber) octets := by
        have passed : exponentSign (Text.Utf8.encode sign ++ b :: octets)
            = .ok (sign != ['-'], b :: octets) := by
          rcases signed with rfl | rfl | rfl
          · exact exponentSign_digit isDigit octets
          · rfl
          · rfl
        simp only [skipExponent, Reader.run_bind, advance_cons, passed, look_cons]
      have spelled : Text.Utf8.encode (letter :: (sign ++ c :: more)) ++ rest
          = String.utf8EncodeChar letter
            ++ (Text.Utf8.encode sign ++ b :: (Text.Utf8.encode more ++ rest)) := by
        rw [Text.Utf8.encode_cons, Text.Utf8.encode_append, octets]
        simp only [List.append_assoc, List.cons_append]
      rw [if_pos isDigit] at behind
      rw [spelled]
      rcases lettered with rfl | rfl <;> exact (behind _).trans skipped

theorem skipAfterWhole_exponent (isExponent : IsExponent exponent)
    : skipAfterWhole (Text.Utf8.encode exponent ++ rest) = .ok ((), rest) := by
  have passed := skipOptionalExponent_encode ends isExponent
  have noPoint {b : UInt8} {more : Octets} (starts : Text.Utf8.encode exponent ++ rest = b :: more)
      : b ≠ Octet.point := by
    cases isExponent with
    | none => exact (ends b more starts).2.1
    | digits lettered =>
        rcases lettered with rfl | rfl <;> obtain ⟨rfl, -⟩ := List.cons.inj starts <;> decide
  rw [skipAfterWhole, Reader.run_bind]
  cases octets : Text.Utf8.encode exponent ++ rest with
  | nil =>
      rw [octets] at passed
      exact passed
  | cons b more =>
      rw [octets] at passed
      rw [look_cons]
      simp only
      generalize same : some b = seen
      split
      next => exact absurd (Option.some.inj same) (noPoint octets)
      next => exact passed

theorem skipAfterWhole_encode (isFraction : IsFraction fraction) (isExponent : IsExponent exponent)
    : skipAfterWhole (Text.Utf8.encode (fraction ++ exponent) ++ rest) = .ok ((), rest) := by
  cases isFraction with
  | none => exact skipAfterWhole_exponent ends isExponent
  | digits all =>
      next c more =>
      obtain ⟨b, octets, isDigit, -⟩ := encode_cons_of_isDigit (all c (by simp)) more
      have skipped := skipDigits_encode all (startsWithDigit_exponent ends isExponent)
      have starts : startsWithDigit
          (Text.Utf8.encode (c :: more) ++ (Text.Utf8.encode exponent ++ rest)) = true := by
        rw [octets]
        exact isDigit
      have point (octets : Octets)
          : skipAfterWhole (Octet.point :: octets)
            = (if startsWithDigit octets then skipDigits >>= fun _ => skipOptionalExponent
              else failNext .invalidNumber) octets := rfl
      have spelled : Text.Utf8.encode ('.' :: c :: more ++ exponent) ++ rest
          = Octet.point :: (Text.Utf8.encode (c :: more) ++ (Text.Utf8.encode exponent ++ rest)) := by
        rw [Text.Utf8.encode_append, List.append_assoc]
        rfl
      rw [spelled, point, if_pos starts, Reader.run_bind, skipped]
      exact skipOptionalExponent_encode ends isExponent

/-- A number without a minus is passed over part by part. -/
theorem skipUnsigned_encode {chars : List Char} (isUnsigned : IsUnsigned chars)
    : skipUnsigned (Text.Utf8.encode chars ++ rest) = .ok ((), rest) := by
  obtain ⟨isWhole, isFraction, isExponent⟩ := isUnsigned
  have passed := skipAfterWhole_encode ends isFraction isExponent
  have noDigit := startsWithDigit_fraction ends isFraction isExponent
  rw [Text.Utf8.encode_append, List.append_assoc]
  cases isWhole with
  | zero =>
      have zero (octets : Octets) : skipUnsigned (Octet.zero :: octets)
          = (if startsWithDigit octets then failNext .invalidNumber else skipAfterWhole) octets := rfl
      have spelled (octets : Octets) : Text.Utf8.encode ['0'] ++ octets = Octet.zero :: octets := rfl
      rw [spelled, zero, noDigit, if_neg (by decide), passed]
  | digits nonzero all =>
      next c more =>
      obtain ⟨b, octets, isDigit, zero⟩ := encode_cons_of_isDigit (all c (by simp)) more
      have others : ∀ d ∈ more, d.isDigit := fun d member => all d (by simp [member])
      have skipped := skipDigits_encode others noDigit
      have digit (octets : Octets) : skipUnsigned (b :: octets)
          = (skipDigits >>= fun _ => skipAfterWhole) octets := by
        rw [skipUnsigned, Reader.run_bind, look_cons]
        simp only [Reader.run_bind, advance_cons, zero nonzero, if_false, isDigit, if_true]
      rw [octets, List.cons_append, digit, Reader.run_bind, skipped]
      exact passed

end

-----------------------------------------------------------------------------------------
-- Whole values
-----------------------------------------------------------------------------------------

/-- A value that opens no container is passed over by its start. -/
theorem skipValue_of_skipStart {octets : Octets} (passed : skipStart octets = .ok (none, rest))
    : skipValue octets = .ok ((), rest) := by
  have step : skipStep .value [] octets = .ok ((.ended, []), rest) := by
    rw [skipStep, Reader.run_bind, passed]
    rfl
  rw [skipValue, Reader.run_bind, Reader.run_get]
  simp only
  rw [skipWith, Reader.run_bind, step]
  rfl

theorem skipValue_null (rest : Octets)
    : skipValue (Text.Utf8.encode printNull ++ rest) = .ok ((), rest) :=
  skipValue_of_skipStart rfl

theorem skipValue_printText (s : String) (rest : Octets)
    : skipValue (Text.Utf8.encode (printText s) ++ rest) = .ok ((), rest) := by
  have quote (octets : Octets) : skipStart (Octet.quote :: octets)
      = (skipText >>= fun _ => pure none) octets := rfl
  refine skipValue_of_skipStart ?_
  rw [encode_printText, List.cons_append, quote, Reader.run_bind, skipText_printed]
  rfl

/-- A digit starts a number. -/
theorem skipStart_digit {b : UInt8} (isDigit : Json.isDigit b = true) (octets : Octets)
    : skipStart (b :: octets) = (skipUnsigned >>= fun _ => pure none) (b :: octets) := by
  obtain ⟨solid, -⟩ := solid_of_startsNumeral (b := b) (by simp [startsNumeral, isDigit])
  have other {special : UInt8} (noDigit : Json.isDigit special = false) : b ≠ special := by
    rintro rfl
    rw [isDigit] at noDigit
    cases noDigit
  rw [skipStart, Reader.run_bind, valueStart_cons solid]
  simp only
  split
  case h_8 => rw [if_pos isDigit]
  all_goals exact absurd rfl (other rfl)

theorem skipValue_minus (ends : EndsNumeral rest) {chars : List Char}
    (isUnsigned : IsUnsigned chars)
    : skipValue (Text.Utf8.encode ('-' :: chars) ++ rest) = .ok ((), rest) := by
  have minus (octets : Octets) : skipStart (Octet.minus :: octets)
      = (skipUnsigned >>= fun _ => pure none) octets := rfl
  have spelled : Text.Utf8.encode ('-' :: chars) ++ rest
      = Octet.minus :: (Text.Utf8.encode chars ++ rest) := rfl
  refine skipValue_of_skipStart ?_
  rw [spelled, minus, Reader.run_bind, skipUnsigned_encode ends isUnsigned]
  rfl

theorem encode_unsigned_eq_cons {chars : List Char} (isUnsigned : IsUnsigned chars)
    : ∃ b more, Text.Utf8.encode chars = b :: more ∧ isDigit b = true := by
  obtain ⟨isWhole, -, -⟩ := isUnsigned
  rw [Text.Utf8.encode_append]
  cases isWhole with
  | zero => exact ⟨_, _, rfl, rfl⟩
  | digits nonzero all =>
      next c more =>
      obtain ⟨b, octets, isDigit, -⟩ := encode_cons_of_isDigit (all c (by simp)) more
      exact ⟨b, _, by rw [octets, List.cons_append], isDigit⟩

theorem skipValue_unsigned (ends : EndsNumeral rest) {chars : List Char}
    (isUnsigned : IsUnsigned chars)
    : skipValue (Text.Utf8.encode chars ++ rest) = .ok ((), rest) := by
  have passed := skipUnsigned_encode ends isUnsigned
  obtain ⟨b, more, octets, isDigit⟩ := encode_unsigned_eq_cons isUnsigned
  refine skipValue_of_skipStart ?_
  rw [octets, List.cons_append] at passed ⊢
  rw [skipStart_digit isDigit, Reader.run_bind, passed]
  rfl

theorem skipValue_decimalInteger (n : Int) (ends : EndsNumeral rest)
    : skipValue (Text.Utf8.encode (Text.decimalInteger n) ++ rest) = .ok ((), rest) := by
  rw [Text.decimalInteger]
  split
  next => exact skipValue_minus ends (isUnsigned_decimalDigits _)
  next => exact skipValue_unsigned ends (isUnsigned_decimalDigits _)

theorem skipValue_float (x : Binary64) (ends : EndsNumeral rest)
    : skipValue (Text.Utf8.encode x.text ++ rest) = .ok ((), rest) := by
  have isUnsigned := x.shortest.isUnsigned_text x.shortest_proper
  rw [Binary64.text]
  split
  next => exact skipValue_minus ends isUnsigned
  next => exact skipValue_unsigned ends isUnsigned

end PersonRegistry.Json
