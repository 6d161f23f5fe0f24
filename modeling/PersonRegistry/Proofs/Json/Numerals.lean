import PersonRegistry.Proofs.Json.Integers

/-! The text of a number keeps to the syntax of JSON: no zeros lead, digits stand on both sides of a point,
and an exponent has digits behind its sign.
-/

namespace PersonRegistry.Json

-----------------------------------------------------------------------------------------
-- The syntax of numbers
-----------------------------------------------------------------------------------------

inductive IsWhole : List Char → Prop
  | zero : IsWhole ['0']
  | digits {c : Char} {rest : List Char} (nonzero : c ≠ '0') (all : ∀ d ∈ c :: rest, d.isDigit)
      : IsWhole (c :: rest)

inductive IsFraction : List Char → Prop
  | none : IsFraction []
  | digits {c : Char} {rest : List Char} (all : ∀ d ∈ c :: rest, d.isDigit)
      : IsFraction ('.' :: c :: rest)

/-- An exponent has a letter of either case, and may have a sign. -/
inductive IsExponent : List Char → Prop
  | none : IsExponent []
  | digits {letter c : Char} {sign rest : List Char} (lettered : letter = 'e' ∨ letter = 'E')
      (signed : sign = [] ∨ sign = ['-'] ∨ sign = ['+']) (all : ∀ d ∈ c :: rest, d.isDigit)
      : IsExponent (letter :: (sign ++ c :: rest))

/-- A number without a minus. -/
inductive IsUnsigned : List Char → Prop
  | parts {whole fraction exponent : List Char} (isWhole : IsWhole whole)
      (isFraction : IsFraction fraction) (isExponent : IsExponent exponent)
      : IsUnsigned (whole ++ (fraction ++ exponent))

-----------------------------------------------------------------------------------------
-- Decimals
-----------------------------------------------------------------------------------------

theorem isDigit_of_mem_replicate {n : Nat} {c : Char} (member : c ∈ List.replicate n '0')
    : c.isDigit := by
  rw [List.eq_of_mem_replicate member]
  decide

theorem isWhole_decimalDigits (n : Nat) : IsWhole (Text.decimalDigits n) := by
  rcases Nat.eq_zero_or_pos n with rfl | positive
  · exact .zero
  · obtain ⟨c, rest, digits, -, nonzero⟩ := head_decimalDigits positive
    rw [digits]
    exact .digits nonzero fun d member => isDigit_of_mem_decimalDigits (n := n) (digits ▸ member)

theorem isUnsigned_decimalDigits (n : Nat) : IsUnsigned (Text.decimalDigits n) := by
  have parts := IsUnsigned.parts (isWhole_decimalDigits n) .none .none
  rwa [List.append_nil, List.append_nil] at parts

theorem IsFraction.of_ne_nil {digits : List Char} (some : digits ≠ [])
    (all : ∀ d ∈ digits, d.isDigit)
    : IsFraction ('.' :: digits) := by
  obtain ⟨c, rest, rfl⟩ := List.exists_cons_of_ne_nil some
  exact .digits all

theorem isExponent_decimalDigits (n : Nat) {sign : Char} (signed : sign = '-' ∨ sign = '+')
    : IsExponent ('e' :: sign :: Text.decimalDigits n) := by
  obtain ⟨c, rest, digits⟩ := List.exists_cons_of_ne_nil (Nat.toDigits_ne_nil (n := n) (b := 10))
  have all : ∀ d ∈ c :: rest, d.isDigit := fun d member =>
    isDigit_of_mem_decimalDigits (n := n) (by
      rw [Text.decimalDigits, digits]
      exact member)
  have sole : [sign] = [] ∨ [sign] = ['-'] ∨ [sign] = ['+'] :=
    .inr (signed.imp (congrArg ([·])) (congrArg ([·])))
  rw [Text.decimalDigits, digits]
  exact .digits (.inl rfl) sole all

/-- The digits of a positive number have no leading zero, and may be cut short. -/
theorem isWhole_take {n count : Nat} (positive : 0 < n) (some : 0 < count)
    : IsWhole ((Text.decimalDigits n).take count) := by
  obtain ⟨c, rest, digits, -, nonzero⟩ := head_decimalDigits positive
  obtain ⟨count, rfl⟩ := Nat.exists_eq_succ_of_ne_zero (Nat.ne_of_gt some)
  have all : ∀ d ∈ (c :: rest).take (count + 1), d.isDigit := fun d member =>
    isDigit_of_mem_decimalDigits (n := n) (digits ▸ List.mem_of_mem_take member)
  rw [digits]
  rw [List.take_succ_cons] at all ⊢
  exact .digits nonzero all

/-- Zeros may stand behind the digits of a number, unless that is zero itself. -/
theorem isWhole_zeros {n count : Nat} (proper : n = 0 → count = 0)
    : IsWhole (Text.decimalDigits n ++ List.replicate count '0') := by
  rcases Nat.eq_zero_or_pos n with rfl | positive
  · rw [proper rfl]
    exact .zero
  · obtain ⟨c, rest, digits, -, nonzero⟩ := head_decimalDigits positive
    rw [digits, List.cons_append]
    refine .digits nonzero fun d member => ?_
    rw [← List.cons_append, ← digits, List.mem_append] at member
    exact member.elim isDigit_of_mem_decimalDigits isDigit_of_mem_replicate

end PersonRegistry.Json

namespace PersonRegistry.Binary64

open Json (IsWhole IsFraction IsExponent IsUnsigned)

/-- A point after the first of several digits makes them a number, also when that digit is zero. -/
theorem pointAfterFirst_decimalDigits (n : Nat)
    : ∃ whole fraction, IsWhole whole ∧ IsFraction fraction
      ∧ pointAfterFirst (Text.decimalDigits n) = whole ++ fraction := by
  rcases Nat.eq_zero_or_pos n with rfl | positive
  · exact ⟨['0'], [], .zero, .none, rfl⟩
  · have all {d : Char} : d ∈ Text.decimalDigits n → d.isDigit := Json.isDigit_of_mem_decimalDigits
    obtain ⟨c, rest, digits, isDigit, nonzero⟩ := Json.head_decimalDigits positive
    have first : IsWhole [c] := .digits nonzero (by simpa using isDigit)
    rw [digits] at all ⊢
    cases rest with
    | nil => exact ⟨[c], [], first, .none, rfl⟩
    | cons d more =>
        exact ⟨[c], _, first, .digits fun d member => all (List.mem_cons_of_mem _ member), rfl⟩

/-- A decimal is written as a number, unless it is zero times a higher power of ten: that would be
written with several zeros. By cases on where the point stands.
-/
theorem Decimal.isUnsigned_text (x : Decimal) (proper : x.digits = 0 → x.exponent ≤ 0)
    : IsUnsigned x.text := by
  have digitsOf : Nat.toDigits 10 x.digits = Text.decimalDigits x.digits := rfl
  have some : Text.decimalDigits x.digits ≠ [] := Nat.toDigits_ne_nil
  have length := List.length_pos_iff.mpr some
  rw [Decimal.text, digitsOf]
  split
  next plain =>
    split
    next upwards =>
      have fraction : IsFraction ['.', '0'] := .digits (by simp)
      have whole : IsWhole (Text.decimalDigits x.digits ++ List.replicate x.exponent.toNat '0') :=
        Json.isWhole_zeros (by omega)
      simpa using IsUnsigned.parts whole fraction .none
    next downwards =>
      split
      next inside =>
        have positive : 0 < x.digits := by
          refine Nat.pos_of_ne_zero fun zero => ?_
          have one : (Text.decimalDigits 0).length = 1 := rfl
          rw [zero, one] at inside
          omega
        have behind {count : Nat} (short : count < (Text.decimalDigits x.digits).length)
            : IsFraction ('.' :: (Text.decimalDigits x.digits).drop count) :=
          .of_ne_nil (by simpa using short)
            fun d member => Json.isDigit_of_mem_decimalDigits (List.mem_of_mem_drop member)
        simpa using IsUnsigned.parts (Json.isWhole_take positive (Nat.succ_pos _))
          (behind (by omega)) .none
      next before =>
        have fraction : IsFraction ('.' :: (List.replicate
            (-(x.exponent + (Text.decimalDigits x.digits).length - 1) - 1).toNat '0'
              ++ Text.decimalDigits x.digits)) :=
          .of_ne_nil (by simp [some]) fun d member => (List.mem_append.mp member).elim
            Json.isDigit_of_mem_replicate Json.isDigit_of_mem_decimalDigits
        simpa using IsUnsigned.parts .zero fraction .none
  next scientific =>
    obtain ⟨whole, fraction, isWhole, isFraction, mantissa⟩ :=
      pointAfterFirst_decimalDigits x.digits
    have exponent (power : Int)
        : IsExponent ('e' :: (if power < 0 then '-' else '+') :: Text.decimalDigits power.natAbs) := by
      refine Json.isExponent_decimalDigits _ ?_
      split
      next => exact .inl rfl
      next => exact .inr rfl
    rw [mantissa, List.append_assoc]
    exact .parts isWhole isFraction (exponent _)

-----------------------------------------------------------------------------------------
-- The shortest decimal of a number
-----------------------------------------------------------------------------------------

theorem unitsAt_pos {magnitude : Nat} (positive : 0 < magnitude) : 0 < unitsAt magnitude := by
  rw [unitsAt]
  split
  next => exact positive
  next => exact Nat.mul_pos (Nat.add_pos_left (by decide) _) (Nat.pow_pos (by decide))

/-- What reads back as a number is not zero: the midpoint below the number is above that. -/
theorem pos_of_readsBackAt {magnitude digits : Nat} (positive : 0 < magnitude) {exponent : Int}
    (reads : readsBackAt magnitude exponent digits = true)
    : 0 < digits := by
  refine Nat.pos_of_ne_zero fun zero => ?_
  subst zero
  have low : 0 < (unitsAt (magnitude - 1) + unitsAt magnitude) * Nat.pow 10 (-exponent).toNat :=
    Nat.mul_pos (Nat.add_pos_right _ (unitsAt_pos positive)) (Nat.pow_pos (by decide))
  rw [readsBackAt] at reads
  simp only [Nat.zero_mul] at reads
  split at reads
  next => exact absurd (of_decide_eq_true reads).1 (Nat.not_le.mpr low)
  next => exact absurd (of_decide_eq_true reads).1 (Nat.not_lt_zero _)

theorem gridPoint?_pos {magnitude : Nat} (positive : 0 < magnitude) {exponent : Int} {digits : Nat}
    (found : gridPoint? magnitude exponent = some digits)
    : 0 < digits := by
  simp only [gridPoint?] at found
  split at found
  next reads _ =>
    obtain rfl := Option.some.inj found
    have least := pos_of_readsBackAt positive reads
    rw [roundQuotient]
    split
    next => exact least
    next => split <;> omega
  next reads _ =>
    obtain rfl := Option.some.inj found
    exact pos_of_readsBackAt positive reads
  next =>
    obtain rfl := Option.some.inj found
    exact Nat.succ_pos _
  next => cases found

/-- The coarsest grid gives some digits, unless all steps are used up. By induction on the steps. -/
theorem coarsest_digits {magnitude : Nat} (positive : 0 < magnitude) (steps : Nat) (exponent : Int)
    : 0 < (coarsest magnitude steps exponent).digits
      ∨ (coarsest magnitude steps exponent).exponent = exponent - steps := by
  induction steps generalizing exponent with
  | zero => exact .inr (by simp [coarsest])
  | succ steps ih =>
      rw [coarsest]
      split
      next digits found => exact .inl (gridPoint?_pos positive found)
      next =>
        refine (ih (exponent - 1)).imp id fun same => same.trans ?_
        omega

/-- The shortest decimal of a number is zero only below the unit. -/
theorem shortest_proper (x : Binary64) (zero : x.shortest.digits = 0) : x.shortest.exponent ≤ 0 := by
  rw [shortest] at zero ⊢
  split at zero
  next none => simp [none]
  next some =>
    rw [if_neg some]
    rcases coarsest_digits (Nat.pos_of_ne_zero some) 634 309 with positive | exhausted
    · omega
    · rw [exhausted]
      decide

end PersonRegistry.Binary64
