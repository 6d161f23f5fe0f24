import PersonRegistry.Proofs.Json.Integers
import PersonRegistry.Text.Blank
import PersonRegistry.Text.IntegerText

/-! Integers as people write them: which texts spell one, and that exactly these are read, within the bounds
of a width. Blanks around a text do not count.
-/

namespace PersonRegistry.Text

-----------------------------------------------------------------------------------------
-- Digits
-----------------------------------------------------------------------------------------

/-- A text spells an integer: digits, one at least, perhaps behind a sign. -/
inductive Spells : List Char → Int → Prop
  | unsigned {digits : List Char} (some : digits ≠ []) (all : ∀ c ∈ digits, c.isDigit)
    : Spells digits (Nat.ofDigitChars 10 digits 0)
  | plus {digits : List Char} (some : digits ≠ []) (all : ∀ c ∈ digits, c.isDigit)
    : Spells ('+' :: digits) (Nat.ofDigitChars 10 digits 0)
  | minus {digits : List Char} (some : digits ≠ []) (all : ∀ c ∈ digits, c.isDigit)
    : Spells ('-' :: digits) (-(Nat.ofDigitChars 10 digits 0 : Nat))

theorem digitValue?_eq (c : Char)
    : digitValue? c = if c.isDigit then some (c.toNat - '0'.toNat) else none := by
  simp [digitValue?, Char.isDigit, Char.le_def]

/-- Digits are read up to a bound, by induction on them: the value only grows, so that it goes beyond the
bound for good.
-/
theorem readDigits_eq_ok {bound value n : Nat} {beyond : IntegerFlaw} {digits : List Char}
    (within : value ≤ bound)
    : readDigits bound beyond value digits = .ok n
      ↔ (∀ c ∈ digits, c.isDigit) ∧ Nat.ofDigitChars 10 digits value = n ∧ n ≤ bound := by
  induction digits generalizing value with
  | nil =>
      simp only [readDigits, Except.ok.injEq, List.not_mem_nil, false_implies, implies_true, true_and,
        Nat.ofDigitChars_nil]
      exact ⟨fun same => ⟨same, same ▸ within⟩, And.left⟩
  | cons c rest ih =>
      rw [readDigits, digitValue?_eq, Nat.ofDigitChars_cons, List.forall_mem_cons, Nat.mul_comm 10]
      cases digit : c.isDigit with
      | false => simp
      | true =>
          simp only [if_true, true_and]
          split
          next above =>
            have grows := Json.le_ofDigitChars rest (value * 10 + (c.toNat - '0'.toNat))
            simp only [reduceCtorEq, false_iff]
            rintro ⟨-, rfl, below⟩
            omega
          next fits => exact ih (Nat.not_lt.mp fits)

theorem not_spells_nil {n : Int} : ¬Spells [] n := by
  intro spells
  cases spells with
  | unsigned some => exact some rfl

/-- Only digits and signs stand in what spells an integer. -/
theorem Spells.mem {text : List Char} {n : Int} (spells : Spells text n) {c : Char} (member : c ∈ text)
    : c.isDigit ∨ c ∈ ['+', '-'] := by
  cases spells with
  | unsigned _ all => exact .inl (all c member)
  | plus _ all =>
      rcases List.mem_cons.mp member with rfl | digit
      · exact .inr (by decide)
      · exact .inl (all c digit)
  | minus _ all =>
      rcases List.mem_cons.mp member with rfl | digit
      · exact .inr (by decide)
      · exact .inl (all c digit)

theorem spells_plus {digits : List Char} {n : Int}
    : Spells ('+' :: digits) n
      ↔ digits ≠ [] ∧ (∀ c ∈ digits, c.isDigit) ∧ n = (Nat.ofDigitChars 10 digits 0 : Nat) := by
  constructor
  · intro spells
    cases spells with
    | unsigned _ all => exact absurd (all '+' List.mem_cons_self) (by decide)
    | plus some all => exact ⟨some, all, rfl⟩
  · rintro ⟨some, all, rfl⟩
    exact .plus some all

theorem spells_minus {digits : List Char} {n : Int}
    : Spells ('-' :: digits) n
      ↔ digits ≠ [] ∧ (∀ c ∈ digits, c.isDigit) ∧ n = -(Nat.ofDigitChars 10 digits 0 : Nat) := by
  constructor
  · intro spells
    cases spells with
    | unsigned _ all => exact absurd (all '-' List.mem_cons_self) (by decide)
    | minus some all => exact ⟨some, all, rfl⟩
  · rintro ⟨some, all, rfl⟩
    exact .minus some all

theorem spells_unsigned {text : List Char} {n : Int} (some : text ≠ [])
    (noPlus : ∀ digits, text ≠ '+' :: digits) (noMinus : ∀ digits, text ≠ '-' :: digits)
    : Spells text n ↔ (∀ c ∈ text, c.isDigit) ∧ n = (Nat.ofDigitChars 10 text 0 : Nat) := by
  constructor
  · intro spells
    cases spells with
    | unsigned _ all => exact ⟨all, rfl⟩
    | plus => exact absurd rfl (noPlus _)
    | minus => exact absurd rfl (noMinus _)
  · rintro ⟨all, rfl⟩
    exact .unsigned some all

theorem holds_ofNat {range : IntegerRange} {n : Nat} : range.holds n = true ↔ n ≤ range.above := by
  simp only [IntegerRange.holds, Bool.and_eq_true, decide_eq_true_eq]
  omega

theorem holds_neg {range : IntegerRange} {n : Nat} : range.holds (-n) = true ↔ n ≤ range.below := by
  simp only [IntegerRange.holds, Bool.and_eq_true, decide_eq_true_eq]
  omega

theorem holds_signed64 {n : Int}
    : IntegerRange.signed64.holds n = true ↔ -0x8000000000000000 ≤ n ∧ n < 0x8000000000000000 := by
  have below : (IntegerRange.signed64.below : Int) = 0x8000000000000000 := rfl
  have above : (IntegerRange.signed64.above : Int) = 0x7fffffffffffffff := rfl
  rw [IntegerRange.holds, Bool.and_eq_true, decide_eq_true_eq, decide_eq_true_eq, below, above]
  omega

theorem toOption_map_eq_some {ε α β : Type} {f : α → β} {result : Except ε α} {b : β}
    : (result.map f).toOption = some b ↔ ∃ a, result = .ok a ∧ f a = b := by
  cases result with
  | error e => simp [Except.map, Except.toOption]
  | ok a => simp [Except.map, Except.toOption]

variable {range : IntegerRange} {text digits : List Char} {n : Int} {beyond : IntegerFlaw}

/-- Digits spell a number that is not negative, and is read if it is not above the range. -/
theorem toOption_readDigits
    : ((readDigits range.above beyond 0 digits).map Int.ofNat).toOption = some n
      ↔ (∀ c ∈ digits, c.isDigit) ∧ n = (Nat.ofDigitChars 10 digits 0 : Nat)
        ∧ range.holds n = true := by
  rw [toOption_map_eq_some]
  constructor
  · rintro ⟨m, read, rfl⟩
    obtain ⟨all, rfl, fits⟩ := (readDigits_eq_ok (Nat.zero_le _)).mp read
    exact ⟨all, rfl, holds_ofNat.mpr fits⟩
  · rintro ⟨all, rfl, holds⟩
    exact ⟨_, (readDigits_eq_ok (Nat.zero_le _)).mpr ⟨all, rfl, holds_ofNat.mp holds⟩, rfl⟩

/-- Behind a minus they spell one that is not positive, and is read if it is not below the range. -/
theorem toOption_readDigits_neg
    : ((readDigits range.below beyond 0 digits).map fun m : Nat => -(m : Int)).toOption = some n
      ↔ (∀ c ∈ digits, c.isDigit) ∧ n = -(Nat.ofDigitChars 10 digits 0 : Nat)
        ∧ range.holds n = true := by
  rw [toOption_map_eq_some]
  constructor
  · rintro ⟨m, read, rfl⟩
    obtain ⟨all, rfl, fits⟩ := (readDigits_eq_ok (Nat.zero_le _)).mp read
    exact ⟨all, rfl, holds_neg.mpr fits⟩
  · rintro ⟨all, rfl, holds⟩
    exact ⟨_, (readDigits_eq_ok (Nat.zero_le _)).mpr ⟨all, rfl, holds_neg.mp holds⟩, rfl⟩

/-- Where negative numbers fit, exactly the integers of a range are read, by cases on the sign. -/
theorem toOption_readInteger (signed : range.below ≠ 0)
    : (readInteger range text).toOption = some n ↔ Spells text n ∧ range.holds n = true := by
  rw [readInteger.eq_def]
  split
  next => simp [Except.toOption, not_spells_nil]
  next => simp [Except.toOption, spells_plus]
  next => simp [Except.toOption, spells_minus]
  next digits empty =>
    have some : digits ≠ [] := by simpa using empty
    rw [toOption_readDigits, spells_plus]
    simp only [some, ne_eq, not_false_eq_true, true_and, and_assoc]
  next digits empty =>
    have some : digits ≠ [] := by simpa using empty
    have lifted (result : Except IntegerFlaw Nat)
        : Except.map (fun value => -value) (result >>= fun m => pure (m : Int))
          = result.map fun m : Nat => -(m : Int) := by
      cases result <;> rfl
    rw [if_neg signed, lifted, toOption_readDigits_neg, spells_minus]
    simp only [some, ne_eq, not_false_eq_true, true_and, and_assoc]
  next empty _ _ noPlus noMinus =>
    rw [toOption_readDigits, spells_unsigned empty noPlus noMinus, and_assoc]

-----------------------------------------------------------------------------------------
-- Blanks around a text
-----------------------------------------------------------------------------------------

/-- A text consists of what is left of it when it is trimmed, and blanks around that. -/
theorem exists_around_trimmed (text : List Char)
    : ∃ left right, text = left ++ trimmed text ++ right
      ∧ ∀ c ∈ left ++ right, isBlank c = true := by
  refine ⟨text.takeWhile isBlank, ((text.dropWhile isBlank).reverse.takeWhile isBlank).reverse, ?_, ?_⟩
  · rw [trimmed, List.append_assoc, ← List.reverse_append, List.takeWhile_append_dropWhile,
      List.reverse_reverse, List.takeWhile_append_dropWhile]
  · intro c member
    rcases List.mem_append.mp member with before | behind
    · exact List.all_eq_true.mp List.all_takeWhile c before
    · exact List.all_eq_true.mp List.all_takeWhile c (List.mem_reverse.mp behind)

theorem dropWhile_blank {blanks rest : List Char} (blank : ∀ c ∈ blanks, isBlank c = true)
    (solid : ∀ c ∈ rest.head?, isBlank c = false)
    : (blanks ++ rest).dropWhile isBlank = rest := by
  rw [List.dropWhile_append_of_pos blank]
  cases rest with
  | nil => rfl
  | cons c more => rw [List.dropWhile_cons, solid c rfl, if_neg Bool.false_ne_true]

/-- Blanks around a text without any are trimmed away. -/
theorem trimmed_around {left text right : List Char} (blank : ∀ c ∈ left ++ right, isBlank c = true)
    (solid : ∀ c ∈ text, isBlank c = false)
    : trimmed (left ++ text ++ right) = text := by
  obtain ⟨before, behind⟩ := List.forall_mem_append.mp blank
  cases text with
  | nil =>
      have nothing : (left ++ right).dropWhile isBlank = [] := by
        rw [← List.append_nil (left ++ right)]
        exact dropWhile_blank blank (by simp)
      rw [List.append_nil, trimmed, nothing]
      rfl
  | cons c more =>
      have first : (left ++ (c :: more ++ right)).dropWhile isBlank = c :: more ++ right :=
        dropWhile_blank before fun d head => by
          obtain rfl : c = d := Option.some.inj head
          exact solid c List.mem_cons_self
      have last : (right.reverse ++ (c :: more).reverse).dropWhile isBlank = (c :: more).reverse :=
        dropWhile_blank (fun d member => behind d (List.mem_reverse.mp member)) fun d head =>
          solid d (List.mem_reverse.mp (List.mem_of_head? head))
      rw [List.append_assoc, trimmed, first, List.reverse_append, last, List.reverse_reverse]

end PersonRegistry.Text
