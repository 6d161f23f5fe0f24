import PersonRegistry.Proofs.Json.Numerals
import PersonRegistry.Proofs.Number.Midpoints

/-! The shortest decimal of a number has few digits, and stands for no other number: rounded once, it is that
number again.
-/

namespace PersonRegistry.Binary64

-----------------------------------------------------------------------------------------
-- Grids of powers of ten
-----------------------------------------------------------------------------------------

theorem roundQuotient_eq (num den : Nat)
    : roundQuotient num den = num / den ∨ roundQuotient num den = num / den + 1 := by
  have least := le_roundQuotient num den
  have most := roundQuotient_le num den
  omega

/-- How far apart the points of a grid are, where each unit counts `scaleAt` times. -/
def gridStep (exponent : Int) : Nat := one * 10 ^ exponent.toNat

def scaleAt (exponent : Int) : Nat := 10 ^ (-exponent).toNat

section Grid

variable {magnitude digits : Nat} {exponent : Int}

/-- A point of a grid reads back as a magnitude that encloses it. -/
theorem readsBackAt_iff
    : readsBackAt magnitude exponent digits = true
      ↔ Encloses magnitude (gridStep exponent * digits) (scaleAt exponent) := by
  have point : digits * (2 * one) * Nat.pow 10 exponent.toNat = 2 * (gridStep exponent * digits) := by
    have power : Nat.pow 10 exponent.toNat = 10 ^ exponent.toNat := rfl
    rw [gridStep, power, Nat.mul_comm digits, Nat.mul_right_comm, Nat.mul_assoc 2 one, Nat.mul_assoc 2]
  rw [readsBackAt, point, Encloses]
  split <;> exact decide_eq_true_iff

theorem readsBackAt_gridPoint? (found : gridPoint? magnitude exponent = some digits)
    : readsBackAt magnitude exponent digits = true := by
  simp only [gridPoint?] at found
  split at found
  next below above =>
    obtain rfl := Option.some.inj found
    rcases roundQuotient_eq (unitsAt magnitude * Nat.pow 10 (-exponent).toNat)
      (one * Nat.pow 10 exponent.toNat) with same | same
    · exact same ▸ below
    · exact same ▸ above
  next below _ => exact Option.some.inj found ▸ below
  next _ above => exact Option.some.inj found ▸ above
  next => cases found

/-- What reads back is not above the upper midpoint. -/
theorem le_highAt (reads : readsBackAt magnitude exponent digits = true)
    : 2 * (gridStep exponent * digits) ≤ highAt magnitude * scaleAt exponent :=
  (readsBackAt_iff.mp reads).between.2

/-- What does not read back is not between the midpoints. -/
theorem outside_of_readsBackAt (out : readsBackAt magnitude exponent digits = false)
    : 2 * (gridStep exponent * digits) ≤ lowAt magnitude * scaleAt exponent
      ∨ highAt magnitude * scaleAt exponent ≤ 2 * (gridStep exponent * digits) := by
  rw [← Bool.not_eq_true, readsBackAt_iff, Encloses] at out
  split at out <;> omega

/-- A grid without a point that reads back is wider than the midpoints are apart: of the two points around
the number, one is below the lower midpoint and one above the upper.
-/
theorem width_le_of_gridPoint? (none_ : gridPoint? magnitude exponent = none)
    : (highAt magnitude - lowAt magnitude) * scaleAt exponent ≤ 2 * gridStep exponent := by
  obtain ⟨digits, least, most, below, above⟩ : ∃ digits,
      gridStep exponent * digits ≤ unitsAt magnitude * scaleAt exponent
        ∧ unitsAt magnitude * scaleAt exponent < gridStep exponent * (digits + 1)
        ∧ readsBackAt magnitude exponent digits = false
        ∧ readsBackAt magnitude exponent (digits + 1) = false := by
    have step : 0 < gridStep exponent := Nat.mul_pos one_pos (Nat.pow_pos (by decide))
    refine ⟨unitsAt magnitude * scaleAt exponent / gridStep exponent, Nat.mul_div_le _ _,
      Nat.lt_mul_div_succ _ step, ?_⟩
    simp only [gridPoint?] at none_
    split at none_
    next => cases none_
    next => cases none_
    next => cases none_
    next below above => exact ⟨below, above⟩
  have low := Nat.mul_le_mul_right (scaleAt exponent) (lowAt_le magnitude)
  have high : highAt magnitude * scaleAt exponent
      = 2 * (unitsAt magnitude * scaleAt exponent) + stepAt magnitude * scaleAt exponent := by
    rw [highAt_eq, Nat.add_mul, Nat.mul_assoc]
  have apart : 0 < stepAt magnitude * scaleAt exponent :=
    Nat.mul_pos (stepAt_pos magnitude) (Nat.pow_pos (by decide))
  have below := outside_of_readsBackAt below
  have above := outside_of_readsBackAt above
  rw [Nat.mul_succ] at most above
  rw [Nat.mul_assoc] at low
  rw [Nat.sub_mul]
  omega

/-- One step up a grid is ten times as wide. -/
theorem grid_succ (exponent : Int)
    : gridStep (exponent + 1) * scaleAt exponent = 10 * (gridStep exponent * scaleAt (exponent + 1)) := by
  rcases Int.lt_or_le exponent 0 with below | above
  · obtain ⟨n, rfl⟩ : ∃ n : Nat, exponent = -(n + 1 : Int) := ⟨(-exponent - 1).toNat, by omega⟩
    have next : (-(n + 1 : Int) + 1).toNat = 0 := by omega
    have here : (-(n + 1 : Int)).toNat = 0 := by omega
    have scale : (- -(n + 1 : Int)).toNat = n + 1 := by omega
    have scaleNext : (-(-(n + 1 : Int) + 1)).toNat = n := by omega
    rw [gridStep, gridStep, scaleAt, scaleAt, next, here, scale, scaleNext, Nat.pow_succ,
      Nat.mul_left_comm 10, Nat.mul_comm (10 ^ n)]
  · have next : (exponent + 1).toNat = exponent.toNat + 1 := by omega
    have scale : (-exponent).toNat = 0 := by omega
    have scaleNext : (-(exponent + 1)).toNat = 0 := by omega
    rw [gridStep, gridStep, scaleAt, scaleAt, next, scale, scaleNext, Nat.pow_succ, Nat.pow_zero,
      Nat.mul_one, Nat.mul_one, ← Nat.mul_assoc one, Nat.mul_comm 10]

/-- What reads back on a grid has few digits if no point of the next wider grid reads back. -/
theorem digits_le (reads : readsBackAt magnitude exponent digits = true)
    (none_ : gridPoint? magnitude (exponent + 1) = none)
    : digits ≤ 40 * binade := by
  have scale : 0 < scaleAt exponent := Nat.pow_pos (by decide)
  have scaleNext : 0 < scaleAt (exponent + 1) := Nat.pow_pos (by decide)
  have width : (highAt magnitude - lowAt magnitude) * scaleAt exponent ≤ 20 * gridStep exponent := by
    refine Nat.le_of_mul_le_mul_right ?_ scaleNext
    calc (highAt magnitude - lowAt magnitude) * scaleAt exponent * scaleAt (exponent + 1)
        = (highAt magnitude - lowAt magnitude) * scaleAt (exponent + 1) * scaleAt exponent :=
          Nat.mul_right_comm _ _ _
      _ ≤ 2 * gridStep (exponent + 1) * scaleAt exponent :=
          Nat.mul_le_mul_right _ (width_le_of_gridPoint? none_)
      _ = 2 * (10 * (gridStep exponent * scaleAt (exponent + 1))) := by
          rw [Nat.mul_assoc, grid_succ]
      _ = 20 * gridStep exponent * scaleAt (exponent + 1) := by
          rw [← Nat.mul_assoc 2, Nat.mul_assoc 20]
  have some : digits * stepAt magnitude ≤ 10 * highAt magnitude := by
    refine Nat.le_of_mul_le_mul_right ?_ scale
    calc digits * stepAt magnitude * scaleAt exponent
        ≤ digits * (highAt magnitude - lowAt magnitude) * scaleAt exponent :=
          Nat.mul_le_mul_right _ (Nat.mul_le_mul_left _ (stepAt_le magnitude))
      _ ≤ digits * (20 * gridStep exponent) := by
          rw [Nat.mul_assoc]
          exact Nat.mul_le_mul_left _ width
      _ = 10 * (2 * (gridStep exponent * digits)) := by
          rw [Nat.mul_comm digits, Nat.mul_assoc, ← Nat.mul_assoc 10]
      _ ≤ 10 * (highAt magnitude * scaleAt exponent) := Nat.mul_le_mul_left _ (le_highAt reads)
      _ = 10 * highAt magnitude * scaleAt exponent := (Nat.mul_assoc _ _ _).symm
  refine Nat.le_of_mul_le_mul_right ?_ (stepAt_pos magnitude)
  calc digits * stepAt magnitude
      ≤ 10 * highAt magnitude := some
    _ ≤ 10 * (4 * binade * stepAt magnitude) := Nat.mul_le_mul_left _ (highAt_le magnitude)
    _ = 40 * binade * stepAt magnitude := by
        rw [← Nat.mul_assoc, ← Nat.mul_assoc]

end Grid

-----------------------------------------------------------------------------------------
-- The shortest decimal of a number
-----------------------------------------------------------------------------------------

/-- The grids that bound the search: the greatest number is below one step of 10 to the power 309, and two
steps of 10 to the power -324 are narrower than the least step between numbers.
-/
theorem outer_grids
    : highAt top * scaleAt 309 < 2 * gridStep 309 ∧ 2 * gridStep (-324) < scaleAt (-324) := by
  decide +kernel

/-- No number is as large as 10 to the power 309. -/
theorem gridPoint?_309 {magnitude : Nat} (positive : 0 < magnitude) (finite : magnitude ≤ top)
    : gridPoint? magnitude 309 = none := by
  have wide := outer_grids.1
  have high := Nat.mul_le_mul_right (scaleAt 309) (highAt_mono finite)
  cases found : gridPoint? magnitude 309 with
  | none => rfl
  | some digits =>
      have below := le_highAt (readsBackAt_gridPoint? found)
      have least := Nat.mul_le_mul_left (gridStep 309) (gridPoint?_pos positive found)
      omega

/-- On the grid of 10 to the power -324 some point reads back, whatever the number. -/
theorem gridPoint?_bottom (magnitude : Nat) : gridPoint? magnitude (-324) ≠ none := by
  intro none_
  have narrow := outer_grids.2
  have width := width_le_of_gridPoint? none_
  have apart : 1 ≤ highAt magnitude - lowAt magnitude :=
    Nat.le_trans (stepAt_pos magnitude) (stepAt_le magnitude)
  have least := Nat.mul_le_mul_right (scaleAt (-324)) apart
  omega

/-- The coarsest grid has a point that reads back, and the next wider one has none. By induction on the steps,
which lead to a grid that has such a point.
-/
theorem coarsest_spec {magnitude : Nat} (steps : Nat) {exponent : Int} (least : -324 ≤ exponent)
    (enough : exponent + 324 < steps) (none_ : gridPoint? magnitude (exponent + 1) = none)
    : let found := coarsest magnitude steps exponent
      readsBackAt magnitude found.exponent found.digits = true
        ∧ (-324 ≤ found.exponent ∧ found.exponent ≤ exponent)
        ∧ gridPoint? magnitude (found.exponent + 1) = none := by
  induction steps generalizing exponent with
  | zero => omega
  | succ steps ih =>
      rw [coarsest]
      split
      next digits found => exact ⟨readsBackAt_gridPoint? found, ⟨least, Int.le_refl exponent⟩, none_⟩
      next nothing =>
        have other : exponent ≠ -324 := fun same => gridPoint?_bottom magnitude (same ▸ nothing)
        have start : exponent - 1 + 1 = exponent := by omega
        obtain ⟨reads, bounds, next⟩ := ih (by omega) (by omega) (start.symm ▸ nothing)
        exact ⟨reads, ⟨bounds.1, by omega⟩, next⟩

theorem shortest_of_zero {x : Binary64} (zero : x.magnitude = 0) : x.shortest = ⟨0, 0⟩ :=
  if_pos zero

/-- The shortest decimal of a number other than zero reads back as the number, and with the next power of ten
none does.
-/
theorem shortest_spec {x : Binary64} (some : x.magnitude ≠ 0)
    : readsBackAt x.magnitude x.shortest.exponent x.shortest.digits = true
      ∧ (-324 ≤ x.shortest.exponent ∧ x.shortest.exponent ≤ 308)
      ∧ gridPoint? x.magnitude (x.shortest.exponent + 1) = none := by
  have none_ := gridPoint?_309 (Nat.pos_of_ne_zero some) x.magnitude_le_top
  rw [shortest, if_neg some, coarsest, none_]
  exact coarsest_spec 633 (by decide) (by decide) none_

theorem shortest_exponent_bounds (x : Binary64)
    : -324 ≤ x.shortest.exponent ∧ x.shortest.exponent ≤ 308 := by
  by_cases zero : x.magnitude = 0
  · rw [shortest_of_zero zero]
    decide
  · exact (shortest_spec zero).2.1

theorem shortest_digits_le (x : Binary64) : x.shortest.digits ≤ 40 * binade := by
  by_cases zero : x.magnitude = 0
  · rw [shortest_of_zero zero]
    exact Nat.zero_le _
  · obtain ⟨reads, -, none_⟩ := shortest_spec zero
    exact digits_le reads none_

theorem shortest_digits_pos {x : Binary64} (some : x.magnitude ≠ 0) : 0 < x.shortest.digits :=
  pos_of_readsBackAt (Nat.pos_of_ne_zero some) (shortest_spec some).1

/-- The shortest decimal of a number, rounded once, is the number. -/
theorem nearestMagnitude_shortest {x : Binary64} (some : x.magnitude ≠ 0)
    : nearestMagnitude (gridStep x.shortest.exponent * x.shortest.digits) (scaleAt x.shortest.exponent)
      = x.magnitude :=
  (readsBackAt_iff.mp (shortest_spec some).1).nearestMagnitude_eq (Nat.pow_pos (by decide))

end PersonRegistry.Binary64
