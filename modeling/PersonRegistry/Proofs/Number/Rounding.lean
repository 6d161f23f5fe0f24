import Mathlib.Algebra.Ring.Nat
import PersonRegistry.Number.Scaled

/-! Rounding keeps the order: the larger of two quotients has the larger of the two nearest magnitudes. So a
product of rounded numbers is finite if a larger one is, and no division by one or more leads beyond the
finite numbers.
-/

namespace PersonRegistry.Binary64

-----------------------------------------------------------------------------------------
-- Magnitudes and their units
-----------------------------------------------------------------------------------------

/-- The step from a magnitude to the next one, in units. -/
def stepAt (magnitude : Nat) : Nat := 2 ^ (magnitude / binade - 1)

theorem stepAt_pos (magnitude : Nat) : 0 < stepAt magnitude := Nat.pow_pos (by decide)

/-- A magnitude as a power of two and a place between it and the next one. -/
theorem exists_split (magnitude : Nat)
    : ∃ exponent place, place < binade ∧ magnitude = binade * exponent + place :=
  ⟨magnitude / binade, magnitude % binade, Nat.mod_lt _ (by decide), (Nat.div_add_mod _ _).symm⟩

section Split

variable {exponent place : Nat} (inside : place < binade)

include inside

theorem stepAt_split : stepAt (binade * exponent + place) = 2 ^ (exponent - 1) := by
  rw [stepAt, Nat.mul_add_div (by decide), Nat.div_eq_of_lt inside, Nat.add_zero]

theorem unitsAt_subnormal : unitsAt place = place :=
  if_pos (Nat.div_eq_of_lt inside)

theorem unitsAt_normal
    : unitsAt (binade * (exponent + 1) + place) = (binade + place) * 2 ^ exponent := by
  have power : (binade * (exponent + 1) + place) / binade = exponent + 1 := by
    rw [Nat.mul_add_div (by decide), Nat.div_eq_of_lt inside]
  have rest : (binade * (exponent + 1) + place) % binade = place := by
    rw [Nat.mul_add_mod, Nat.mod_eq_of_lt inside]
  simp only [unitsAt, power, rest, Nat.succ_ne_zero, if_false]
  rfl

end Split

/-- The next magnitude is one step further, also where the step doubles. -/
theorem unitsAt_succ (magnitude : Nat)
    : unitsAt (magnitude + 1) = unitsAt magnitude + stepAt magnitude := by
  obtain ⟨exponent, place, inside, rfl⟩ := exists_split magnitude
  rw [stepAt_split inside]
  rcases Nat.lt_or_eq_of_le (Nat.succ_le_of_lt inside) with next | last
  · cases exponent with
    | zero =>
        have one : 2 ^ (0 - 1) = 1 := rfl
        rw [Nat.mul_zero, Nat.zero_add, unitsAt_subnormal inside, unitsAt_subnormal next, one]
    | succ exponent =>
        rw [Nat.add_assoc, unitsAt_normal inside, unitsAt_normal next, Nat.add_sub_cancel,
          ← Nat.succ_mul]
        rfl
  · have carry : binade * exponent + place + 1 = binade * (exponent + 1) + 0 := by
      rw [Nat.mul_succ]
      omega
    rw [carry, unitsAt_normal (by decide)]
    cases exponent with
    | zero =>
        rw [Nat.mul_zero, Nat.zero_add, unitsAt_subnormal inside]
        omega
    | succ exponent =>
        have whole : binade + place + 1 = 2 * binade := by omega
        rw [unitsAt_normal inside, Nat.add_sub_cancel, ← Nat.succ_mul, Nat.succ_eq_add_one, whole,
          Nat.pow_succ, Nat.add_zero, Nat.mul_comm (2 ^ exponent), ← Nat.mul_assoc,
          Nat.mul_comm binade]

theorem unitsAt_mono {left right : Nat} (le : left ≤ right) : unitsAt left ≤ unitsAt right := by
  induction le with
  | refl => exact Nat.le_refl _
  | step _ ih =>
      rw [unitsAt_succ]
      exact Nat.le_add_right_of_le ih

theorem unitsAt_lt {left right : Nat} (below : left < right) : unitsAt left < unitsAt right := by
  have next := unitsAt_succ left
  have step := stepAt_pos left
  have least : unitsAt (left + 1) ≤ unitsAt right := unitsAt_mono below
  omega

/-- A magnitude is 2 to the power 53 steps at most, with the step to the next one. -/
theorem unitsAt_succ_le (magnitude : Nat)
    : unitsAt (magnitude + 1) ≤ 2 * binade * stepAt magnitude := by
  obtain ⟨exponent, place, inside, rfl⟩ := exists_split magnitude
  rw [unitsAt_succ, stepAt_split inside]
  cases exponent with
  | zero =>
      rw [Nat.mul_zero, Nat.zero_add, unitsAt_subnormal inside]
      omega
  | succ exponent =>
      rw [unitsAt_normal inside, Nat.add_sub_cancel, ← Nat.succ_mul]
      exact Nat.mul_le_mul_right _ (by omega)

-----------------------------------------------------------------------------------------
-- Rounded quotients
-----------------------------------------------------------------------------------------

theorem le_roundQuotient (num den : Nat) : num / den ≤ roundQuotient num den := by
  rw [roundQuotient]
  split
  next => exact Nat.le_refl _
  next => split <;> omega

theorem roundQuotient_le (num den : Nat) : roundQuotient num den ≤ num / den + 1 := by
  rw [roundQuotient]
  split
  next => omega
  next => split <;> omega

theorem roundQuotient_mono {left right : Nat} (le : left ≤ right) (den : Nat)
    : roundQuotient left den ≤ roundQuotient right den := by
  rcases Nat.lt_or_eq_of_le (Nat.div_le_div_right le (c := den)) with below | same
  · have least := roundQuotient_le left den
    have most := le_roundQuotient right den
    omega
  · -- what is left of the smaller one is less
    have splitLeft := Nat.div_add_mod left den
    have splitRight := Nat.div_add_mod right den
    rw [same] at splitLeft
    have excess : left % den ≤ right % den := by omega
    simp only [roundQuotient, same]
    split
    next => exact le_roundQuotient right den
    next =>
      split
      next above =>
        refine Nat.le_of_eq ?_
        rw [if_neg (by omega), if_pos (by omega)]
      next =>
        split
        next => omega
        next => split <;> omega

theorem roundQuotient_scale {scale : Nat} (positive : 0 < scale) (num den : Nat)
    : roundQuotient (num * scale) (den * scale) = roundQuotient num den := by
  have double : 2 * (num % den * scale) = 2 * (num % den) * scale := (Nat.mul_assoc _ _ _).symm
  simp only [roundQuotient, Nat.mul_div_mul_right _ _ positive, Nat.mul_mod_mul_right, double,
    Nat.mul_lt_mul_right positive]

-----------------------------------------------------------------------------------------
-- Nearest magnitudes
-----------------------------------------------------------------------------------------

theorem nearestMagnitude_scale {scale : Nat} (positive : 0 < scale) (num den : Nat)
    : nearestMagnitude (num * scale) (den * scale) = nearestMagnitude num den := by
  have power (step : Nat) : den * scale * Nat.pow 2 step = den * Nat.pow 2 step * scale :=
    Nat.mul_right_comm _ _ _
  simp only [nearestMagnitude, Nat.mul_div_mul_right _ _ positive, power, roundQuotient_scale positive]

section Significand

variable {num den step : Nat}

/-- The significand of a quotient is below 2 to the power 53. -/
theorem significand_lt (exponent : Nat.log2 (num / den) - 52 = step)
    : num / (den * Nat.pow 2 step) < 2 * binade := by
  have below : num / den < 2 ^ (step + 53) := by
    rcases Nat.eq_zero_or_pos (num / den) with zero | positive
    · rw [zero]
      exact Nat.pow_pos (by decide)
    · exact (Nat.log2_lt (Nat.ne_of_gt positive)).mp (by omega)
  have double : 2 * binade = 2 ^ 53 := rfl
  rw [← Nat.div_div_eq_div_mul, double]
  refine Nat.div_lt_of_lt_mul ?_
  rwa [Nat.pow_add] at below

/-- It is full, unless the step is the least. -/
theorem le_significand (exponent : Nat.log2 (num / den) - 52 = step)
    : step = 0 ∨ binade ≤ num / (den * Nat.pow 2 step) := by
  refine (Nat.eq_zero_or_pos step).imp_right fun some => ?_
  have positive : num / den ≠ 0 := by
    intro zero
    rw [zero, Nat.log2_zero] at exponent
    omega
  have above : 2 ^ (52 + step) ≤ num / den :=
    (Nat.le_log2 positive).mp (by omega)
  rw [← Nat.div_div_eq_div_mul]
  refine (Nat.le_div_iff_mul_le (Nat.pow_pos (by decide))).mpr ?_
  rwa [Nat.pow_add] at above

/-- Below twice the power of two that a magnitude starts from, and one more when rounded up. -/
theorem nearestMagnitude_le (exponent : Nat.log2 (num / den) - 52 = step)
    : nearestMagnitude num den ≤ (step + 2) * binade := by
  have below := significand_lt exponent
  have rounded := roundQuotient_le num (den * Nat.pow 2 step)
  simp only [nearestMagnitude, exponent, Nat.add_mul]
  omega

theorem le_nearestMagnitude (exponent : Nat.log2 (num / den) - 52 = step + 1)
    : (step + 2) * binade ≤ nearestMagnitude num den := by
  have full := (le_significand exponent).resolve_left (Nat.succ_ne_zero step)
  have rounded := le_roundQuotient num (den * Nat.pow 2 (step + 1))
  simp only [nearestMagnitude, exponent, Nat.add_mul]
  omega

end Significand

theorem nearestMagnitude_mono {left right : Nat} (le : left ≤ right) (den : Nat)
    : nearestMagnitude left den ≤ nearestMagnitude right den := by
  have quotients : left / den ≤ right / den := Nat.div_le_div_right le
  have exponents : Nat.log2 (left / den) - 52 ≤ Nat.log2 (right / den) - 52 := by
    rcases Nat.eq_zero_or_pos (left / den) with zero | positive
    · rw [zero]
      exact Nat.zero_le _
    · have power := Nat.log2_self_le (Nat.ne_of_gt positive)
      have more := (Nat.le_log2 (by omega)).mpr (Nat.le_trans power quotients)
      omega
  rcases Nat.lt_or_eq_of_le exponents with below | same
  · obtain ⟨step, exponent⟩ : ∃ step, Nat.log2 (right / den) - 52 = step + 1 :=
      ⟨_, (Nat.succ_pred_eq_of_pos (Nat.zero_lt_of_lt below)).symm⟩
    refine Nat.le_trans (nearestMagnitude_le rfl) (Nat.le_trans ?_ (le_nearestMagnitude exponent))
    exact Nat.mul_le_mul_right _ (by omega)
  · simp only [nearestMagnitude, same]
    exact Nat.add_le_add_left (roundQuotient_mono le _) _

/-- The nearest magnitudes of two quotients are ordered like these. -/
theorem nearestMagnitude_le_of_le {num den other scale : Nat} (positive : 0 < den) (above : 0 < scale)
    (le : num * scale ≤ other * den)
    : nearestMagnitude num den ≤ nearestMagnitude other scale := by
  rw [← nearestMagnitude_scale above num den, ← nearestMagnitude_scale positive other scale,
    Nat.mul_comm scale den]
  exact nearestMagnitude_mono le _

-----------------------------------------------------------------------------------------
-- Finite numbers
-----------------------------------------------------------------------------------------

/-- The greatest magnitude of a finite number. -/
def top : Nat := 0x7fefffffffffffff

theorem magnitude_le_top (x : Binary64) : x.magnitude ≤ top := Nat.le_of_lt_succ x.finite

theorem ofUnits?_eq_some {num den : Nat} (fits : nearestMagnitude num den ≤ top)
    : ofUnits? num den = some ⟨false, nearestMagnitude num den, Nat.lt_succ_of_le fits⟩ :=
  dif_pos (Nat.lt_succ_of_le fits)

theorem le_top_of_ofUnits? {num den : Nat} (some : (ofUnits? num den).isSome)
    : nearestMagnitude num den ≤ top := by
  rw [ofUnits?] at some
  split at some
  next fits => exact Nat.le_of_lt_succ fits
  next => cases some

theorem one_pos : 0 < one := Nat.pos_of_ne_zero (by decide +kernel)

end PersonRegistry.Binary64
