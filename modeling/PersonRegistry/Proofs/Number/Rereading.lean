import PersonRegistry.Proofs.Number.Shortest

/-! The shortest decimal of a number is read as a number again. Reading rounds the digits, the power of ten and
what they amount to, so that may be another number; it is the same one if its text is short.
-/

namespace PersonRegistry.Binary64

-----------------------------------------------------------------------------------------
-- Whole numbers that need no rounding
-----------------------------------------------------------------------------------------

section Exact

variable {digits power : Nat} (positive : 0 < digits) (few : digits < 2 * binade) (known : power < 64)

include positive few known

/-- A whole number below 2 to the power 53, times a power of two, has a magnitude of its own. -/
theorem exists_unitsAt_eq
    : ∃ magnitude, 0 < magnitude ∧ magnitude ≤ top ∧ unitsAt magnitude = digits * 2 ^ power * one := by
  have log : Nat.log2 digits < 53 := (Nat.log2_lt (Nat.ne_of_gt positive)).mpr few
  obtain ⟨rest, split_⟩ := Nat.exists_eq_add_of_le (Nat.le_of_lt_succ log)
  have least := Nat.log2_self_le (Nat.ne_of_gt positive)
  have most := Nat.lt_log2_self (n := digits)
  have full : binade ≤ digits * 2 ^ rest := by
    have double : binade = 2 ^ (Nat.log2 digits + rest) := by
      rw [← split_]
      rfl
    rw [double, Nat.pow_add]
    exact Nat.mul_le_mul_right _ least
  have fits : digits * 2 ^ rest < 2 * binade := by
    have double : 2 * binade = 2 ^ (Nat.log2 digits + 1 + rest) := by
      rw [Nat.add_right_comm, ← split_]
      rfl
    rw [double, Nat.pow_add]
    exact Nat.mul_lt_mul_of_pos_right most (Nat.pow_pos (by decide))
  refine ⟨(1022 + Nat.log2 digits + power) * binade + digits * 2 ^ rest, ?_, ?_, ?_⟩
  · have some : 0 < binade := by decide
    omega
  · have places : (1022 + Nat.log2 digits + power) * binade ≤ 1138 * binade :=
      Nat.mul_le_mul_right _ (by omega)
    have enough : 1140 * binade ≤ top := by decide
    omega
  · have units : one = 2 ^ (rest + (1022 + Nat.log2 digits)) := by
      have sum : 1074 = rest + (1022 + Nat.log2 digits) := by omega
      delta one
      rw [sum]
      rfl
    have product (a b c : Nat) : digits * a * (b * c) = digits * c * (a * b) := by ac_rfl
    rw [unitsAt_place (.inr full) (Nat.le_of_lt fits), units, Nat.pow_add 2 rest, Nat.pow_add 2 _ power]
    exact product _ _ _

theorem ofNat?_exact
    : ∃ x, ofNat? (digits * 2 ^ power) = some x ∧ x.units = digits * 2 ^ power * one := by
  obtain ⟨magnitude, some, fits, units⟩ := exists_unitsAt_eq positive few known
  have nearest : nearestMagnitude (digits * 2 ^ power * one) 1 = magnitude := by
    rw [← units]
    exact (encloses_unitsAt some).nearestMagnitude_eq Nat.one_pos
  rw [← nearest] at fits units
  exact ⟨_, ofUnits?_eq_some fits, units⟩

end Exact

/-- The powers of five up to the 22nd are below 2 to the power 53. -/
theorem powerOfTen_exact {power : Nat} (near : power < 23)
    : (powerOfTen power).units = 10 ^ power * one := by
  have few : 5 ^ power < 2 * binade :=
    Nat.lt_of_le_of_lt (Nat.pow_le_pow_right (by decide) (Nat.le_of_lt_succ near)) (by decide)
  have factors : Nat.pow 10 power = 5 ^ power * 2 ^ power := Nat.mul_pow 5 2 power
  obtain ⟨x, whole, units⟩ := ofNat?_exact (Nat.pow_pos (by decide)) few (by omega : power < 64)
  rw [powerOfTen, factors, whole]
  exact units.trans (congrArg (· * one) factors.symm)

-----------------------------------------------------------------------------------------
-- Zero
-----------------------------------------------------------------------------------------

theorem ofUnits?_zero (den : Nat) : ofUnits? 0 den = some zero := by
  have nearest : nearestMagnitude 0 den = 0 := by
    simp [nearestMagnitude, roundQuotient]
  rw [ofUnits?_eq_some (nearest.symm ▸ Nat.zero_le top)]
  simp only [nearest]
  rfl

/-- Zero is read as zero, whatever its exponent. -/
theorem scaled?_zero (exponent : Int) : scaled? 0 exponent = some zero := by
  have whole : ofNat? 0 = some zero := by rw [ofNat?, Nat.zero_mul, ofUnits?_zero]
  have still (times : Nat) : shrink times zero = zero := by cases times <;> rfl
  have product (y : Binary64) : zero.mul? y = some zero := by
    have none : zero.units = 0 := rfl
    rw [mul?, none, Nat.zero_mul, ofUnits?_zero]
  have none : zero.magnitude = 0 := rfl
  simp only [scaled?, whole, Option.getD_some, still, product, none, if_true, ite_self]

-----------------------------------------------------------------------------------------
-- Decimals that are finite
-----------------------------------------------------------------------------------------

theorem nearest_ofNat_mono {left right : Nat} (le : left ≤ right)
    : nearestMagnitude (left * one) 1 ≤ nearestMagnitude (right * one) 1 :=
  nearestMagnitude_mono (Nat.mul_le_mul_right one le) 1

/-- Whole numbers up to 10 to the power 308 are rounded to finite ones, in ascending order. -/
theorem units_ofNat_mono {left right : Nat} (le : left ≤ right) (known : right ≤ 10 ^ 308)
    : ((ofNat? left).getD zero).units ≤ ((ofNat? right).getD zero).units := by
  have most : nearestMagnitude (10 ^ 308 * one) 1 ≤ top := by decide +kernel
  have fits := Nat.le_trans (nearest_ofNat_mono known) most
  rw [ofNat?, ofNat?, ofUnits?_eq_some (Nat.le_trans (nearest_ofNat_mono le) fits), ofUnits?_eq_some fits]
  exact unitsAt_mono (nearest_ofNat_mono le)

theorem units_powerOfTen_mono {left right : Nat} (le : left ≤ right) (known : right ≤ 308)
    : (powerOfTen left).units ≤ (powerOfTen right).units := by
  refine units_ofNat_mono (Nat.pow_le_pow_right (by decide) le) ?_
  generalize 308 = most at known ⊢
  exact Nat.pow_le_pow_right (by decide) known

/-- A multiple of a power of ten is finite if a greater one is. -/
theorem scaled?_isSome_of_le {left right exponent power : Nat} (le : left ≤ right)
    (known : right ≤ 10 ^ 308) (below : exponent ≤ power) (knownToo : power ≤ 308)
    (some : (scaled? right power).isSome)
    : (scaled? left exponent).isSome := by
  have exponentKnown : (exponent : Int) ≤ 308 := by omega
  have powerKnown : (power : Int) ≤ 308 := by omega
  simp only [scaled?, Int.natCast_nonneg, if_pos, exponentKnown, powerKnown, mul?, Int.toNat_natCast]
    at some ⊢
  have ordered := nearestMagnitude_mono
    (Nat.mul_le_mul (units_ofNat_mono le known) (units_powerOfTen_mono below knownToo)) one
  rw [ofUnits?_eq_some (Nat.le_trans ordered (le_top_of_ofUnits? some))]
  rfl

/-- Nothing grows beyond the finite numbers when it is divided by one or more. -/
theorem div?_isSome {x y : Binary64} (least : one ≤ y.units) : (x.div? y).isSome := by
  have highest : nearestMagnitude (unitsAt top) 1 = top :=
    (encloses_unitsAt (by decide)).nearestMagnitude_eq Nat.one_pos
  have below : x.units * one * 1 ≤ unitsAt top * y.units := by
    rw [Nat.mul_one]
    exact Nat.mul_le_mul (unitsAt_mono x.magnitude_le_top) least
  have ordered := nearestMagnitude_le_of_le (Nat.lt_of_lt_of_le one_pos least) Nat.zero_lt_one below
  rw [div?, ofUnits?_eq_some (Nat.le_trans ordered (Nat.le_of_eq highest))]
  rfl

/-- A fraction is finite, whatever its significand. -/
theorem scaled?_isSome_of_neg (significand : Nat) {exponent : Int} (downwards : exponent < 0)
    : (scaled? significand exponent).isSome := by
  simp only [scaled?, if_neg (Int.not_le.mpr downwards)]
  split
  next => rfl
  next =>
    have least : (powerOfTen 0).units = one := by
      rw [powerOfTen_exact (by decide : 0 < 23), Nat.pow_zero, Nat.one_mul]
    exact div?_isSome (least ▸ units_powerOfTen_mono (Nat.zero_le _) (by omega))

/-- On each grid, the last point that is not above the midpoint below the greatest number is read as a
finite number; a number of few digits is so on all smaller grids.
-/
theorem scaled?_below_top {digits exponent : Nat} (few : digits ≤ 40 * binade) (known : exponent ≤ 308)
    (below : digits ≤ lowAt top / (2 * gridStep exponent))
    : (scaled? digits exponent).isSome := by
  have small {power : Nat} (some : 18 ≤ power) : 40 * binade ≤ 10 ^ power :=
    Nat.le_trans (by decide : 40 * binade ≤ 10 ^ 18) (Nat.pow_le_pow_right (by decide) some)
  rcases Nat.lt_or_ge exponent 289 with low | high
  · have largest : (scaled? (40 * binade) (288 : Nat)).isSome := by decide +kernel
    exact scaled?_isSome_of_le few (small (by decide)) (Nat.le_of_lt_succ low) (by decide) largest
  · obtain ⟨place, rfl⟩ := Nat.exists_eq_add_of_le high
    have finite : ∀ place < 20, lowAt top / (2 * gridStep (289 + place : Nat)) ≤ 10 ^ 308
        ∧ (scaled? (lowAt top / (2 * gridStep (289 + place : Nat))) (289 + place : Nat)).isSome := by
      decide +kernel
    obtain ⟨fits, some⟩ := finite place (by omega)
    exact scaled?_isSome_of_le below fits (Nat.le_refl _) known some

/-- The shortest decimal of a number is read as a finite number. -/
theorem scaled?_shortest (x : Binary64)
    : (scaled? x.shortest.digits x.shortest.exponent).isSome := by
  rcases Int.lt_or_le x.shortest.exponent 0 with downwards | upwards
  · exact scaled?_isSome_of_neg _ downwards
  by_cases zero : x.magnitude = 0
  · rw [shortest_of_zero zero, scaled?_zero]
    rfl
  obtain ⟨reads, ⟨-, known⟩, -⟩ := shortest_spec zero
  rcases Nat.lt_or_eq_of_le x.magnitude_le_top with below | greatest
  · obtain ⟨exponent, same⟩ := Int.eq_ofNat_of_zero_le upwards
    have high := le_highAt reads
    have scale : scaleAt x.shortest.exponent = 1 := by
      rw [scaleAt, same, Int.toNat_neg_natCast, Nat.pow_zero]
    have most : highAt x.magnitude ≤ lowAt top :=
      Nat.add_le_add (unitsAt_mono (Nat.le_sub_one_of_lt below)) (unitsAt_mono below)
    have step : 0 < 2 * gridStep exponent :=
      Nat.mul_pos (by decide) (Nat.mul_pos one_pos (Nat.pow_pos (by decide)))
    have few : x.shortest.digits ≤ lowAt top / (2 * gridStep exponent) := by
      rw [Nat.le_div_iff_mul_le step]
      rw [scale, Nat.mul_one, same, ← Nat.mul_assoc, Nat.mul_comm] at high
      exact Nat.le_trans high most
    rw [same]
    exact scaled?_below_top x.shortest_digits_le (by omega) few
  · have finite : (scaled? (coarsest top 634 309).digits (coarsest top 634 309).exponent).isSome := by
      decide +kernel
    rwa [shortest, if_neg zero, greatest]

-----------------------------------------------------------------------------------------
-- Reading a number back
-----------------------------------------------------------------------------------------

/-- A decimal as its text spells it out: without an exponent, a whole number has a zero behind its point. -/
def Decimal.spelled (x : Decimal) : Decimal :=
  if 0 ≤ x.exponent ∧ x.exponent + (Nat.toDigits 10 x.digits).length - 1 < plainBelow then
    ⟨x.digits * 10 ^ (x.exponent.toNat + 1), -1⟩
  else x

/-- What is written without an exponent has at most 17 digits, the zero behind the point among them. -/
theorem Decimal.spelled_digits_lt {x : Decimal} (fits : x.digits < 0x10000000000000000)
    : x.spelled.digits < 0x10000000000000000 := by
  rw [spelled]
  split
  next plain =>
    have some : 0 < (Nat.toDigits 10 x.digits).length := Nat.length_toDigits_pos
    have digits : x.digits < 10 ^ (Nat.toDigits 10 x.digits).length :=
      (Nat.length_toDigits_le_iff (by decide) some).mp (Nat.le_refl _)
    have places : (Nat.toDigits 10 x.digits).length + (x.exponent.toNat + 1) ≤ 17 := by
      have below := plain.2
      rw [plainBelow] at below
      omega
    calc x.digits * 10 ^ (x.exponent.toNat + 1)
        < 10 ^ (Nat.toDigits 10 x.digits).length * 10 ^ (x.exponent.toNat + 1) :=
          Nat.mul_lt_mul_of_pos_right digits (Nat.pow_pos (by decide))
      _ = 10 ^ ((Nat.toDigits 10 x.digits).length + (x.exponent.toNat + 1)) := (Nat.pow_add _ _ _).symm
      _ ≤ 10 ^ 17 := Nat.pow_le_pow_right (by decide) places
      _ < 0x10000000000000000 := by decide
  next => exact fits

/-- The number that the text of a number is read as. It is close to that number, but not always the same:
reading multiplies or divides a rounded significand by a rounded power of ten.
-/
def reread (x : Binary64) : Binary64 :=
  let decimal := x.shortest.spelled
  ((scaled? decimal.digits decimal.exponent).getD zero).withSign x.negative

theorem scaled?_spelled (x : Binary64)
    : (scaled? x.shortest.spelled.digits x.shortest.spelled.exponent).isSome := by
  rw [Decimal.spelled]
  split
  next => exact scaled?_isSome_of_neg _ (Int.negSucc_lt_zero 0)
  next => exact x.scaled?_shortest

-----------------------------------------------------------------------------------------
-- Decimals that need one rounding
-----------------------------------------------------------------------------------------

theorem ofUnits?_scale {scale : Nat} (positive : 0 < scale) (num den : Nat)
    : ofUnits? (num * scale) (den * scale) = ofUnits? num den := by
  simp only [ofUnits?, nearestMagnitude_scale positive]

/-- Few digits times a power of ten that is a number itself are rounded once. -/
theorem scaled?_eq {digits : Nat} {exponent : Int} (positive : 0 < digits) (few : digits < 2 * binade)
    (near : exponent.natAbs < 23)
    : scaled? digits exponent = ofUnits? (gridStep exponent * digits) (scaleAt exponent) := by
  obtain ⟨x, whole, units⟩ := ofNat?_exact positive few (by decide : 0 < 64)
  rw [Nat.pow_zero, Nat.mul_one] at whole units
  have power : (powerOfTen exponent.natAbs).units = 10 ^ exponent.natAbs * one := powerOfTen_exact near
  have some : x.magnitude ≠ 0 := by
    intro zero
    have none : x.units = 0 := by
      rw [Binary64.units, zero]
      decide
    rw [units] at none
    exact Nat.ne_of_gt (Nat.mul_pos positive one_pos) none
  simp only [scaled?, whole, Option.getD_some]
  rcases Int.lt_or_le exponent 0 with downwards | upwards
  · have times : (exponent.natAbs - 1) / 308 = 0 := by omega
    have step : exponent.toNat = 0 := by omega
    have scale : (-exponent).toNat = exponent.natAbs := by omega
    rw [if_neg (Int.not_le.mpr downwards), times, shrink, if_neg some, Nat.mul_zero, Nat.sub_zero, div?,
      units, power, ofUnits?_scale one_pos, gridStep, scaleAt, step, scale, Nat.pow_zero, Nat.mul_one,
      Nat.mul_comm digits]
  · have known : exponent ≤ 308 := by omega
    have step : exponent.toNat = exponent.natAbs := by omega
    have scale : (-exponent).toNat = 0 := by omega
    have product (unit : Nat) : digits * unit * (10 ^ exponent.natAbs * unit)
        = unit * 10 ^ exponent.natAbs * digits * unit := by
      ac_rfl
    rw [if_pos upwards, if_pos known, mul?, step, units, power, gridStep, scaleAt, step, scale, Nat.pow_zero,
      ← ofUnits?_scale one_pos _ 1, Nat.one_mul, product one]

-----------------------------------------------------------------------------------------
-- Numbers that are read as themselves
-----------------------------------------------------------------------------------------

/-- The text of a number has few digits, and an exponent whose power of ten needs no rounding. -/
def IsShort (x : Binary64) : Prop :=
  x.shortest.spelled.digits < 2 * binade ∧ x.shortest.spelled.exponent.natAbs < 23

instance (x : Binary64) : Decidable x.IsShort := inferInstanceAs (Decidable (_ ∧ _))

/-- Spelled out, a decimal stands for the same quotient. -/
theorem ofUnits?_spelled (x : Decimal)
    : ofUnits? (gridStep x.spelled.exponent * x.spelled.digits) (scaleAt x.spelled.exponent)
      = ofUnits? (gridStep x.exponent * x.digits) (scaleAt x.exponent) := by
  rw [Decimal.spelled]
  split
  next plain =>
    have upwards : (-x.exponent).toNat = 0 := by
      have least := plain.1
      omega
    have step : gridStep (-1) = one := by
      have none : (-1 : Int).toNat = 0 := rfl
      rw [gridStep, none, Nat.pow_zero, Nat.mul_one]
    have scale : scaleAt (-1) = 10 := rfl
    have product (unit : Nat) : unit * (x.digits * 10 ^ (x.exponent.toNat + 1))
        = unit * 10 ^ x.exponent.toNat * x.digits * 10 := by
      rw [Nat.pow_succ]
      ac_rfl
    rw [← ofUnits?_scale (by decide : 0 < 10) (gridStep x.exponent * x.digits), step, scale, product one,
      gridStep, scaleAt, upwards]
    rfl
  next => rfl

theorem Decimal.spelled_digits_pos {x : Decimal} (positive : 0 < x.digits) : 0 < x.spelled.digits := by
  rw [spelled]
  split
  next => exact Nat.mul_pos positive (Nat.pow_pos (by decide))
  next => exact positive

/-- A number with a short text is read as itself. -/
theorem reread_eq_self {x : Binary64} (short : x.IsShort) : x.reread = x := by
  have read : scaled? x.shortest.spelled.digits x.shortest.spelled.exponent
      = some ⟨false, x.magnitude, x.finite⟩ := by
    by_cases zero : x.magnitude = 0
    · have spelled : (Decimal.mk 0 0).spelled = ⟨0, -1⟩ := by decide
      rw [shortest_of_zero zero, spelled, scaled?_zero]
      simp only [zero]
      rfl
    · have some := Decimal.spelled_digits_pos (shortest_digits_pos zero)
      have nearest := nearestMagnitude_shortest zero
      rw [scaled?_eq some short.1 short.2, ofUnits?_spelled,
        ofUnits?_eq_some (nearest.symm ▸ x.magnitude_le_top)]
      simp only [nearest]
  rw [reread, read]
  rfl

end PersonRegistry.Binary64
