import PersonRegistry.Proofs.Number.Rounding

/-! A quotient is rounded to the one magnitude whose midpoints enclose it. -/

namespace PersonRegistry.Binary64

-----------------------------------------------------------------------------------------
-- Midpoints
-----------------------------------------------------------------------------------------

/-- The midpoints to the neighbours of a magnitude, in half units. -/
def lowAt (magnitude : Nat) : Nat := unitsAt (magnitude - 1) + unitsAt magnitude

def highAt (magnitude : Nat) : Nat := unitsAt magnitude + unitsAt (magnitude + 1)

theorem lowAt_le (magnitude : Nat) : lowAt magnitude ≤ 2 * unitsAt magnitude := by
  have before := unitsAt_mono (Nat.sub_le magnitude 1)
  rw [lowAt]
  omega

/-- The upper midpoint is half a step above the magnitude. -/
theorem highAt_eq (magnitude : Nat) : highAt magnitude = 2 * unitsAt magnitude + stepAt magnitude := by
  rw [highAt, unitsAt_succ]
  omega

theorem highAt_mono {left right : Nat} (le : left ≤ right) : highAt left ≤ highAt right :=
  Nat.add_le_add (unitsAt_mono le) (unitsAt_mono (Nat.succ_le_succ le))

/-- A magnitude and its neighbours are more than a step apart. -/
theorem stepAt_le (magnitude : Nat) : stepAt magnitude ≤ highAt magnitude - lowAt magnitude := by
  have low := lowAt_le magnitude
  have high := highAt_eq magnitude
  omega

theorem highAt_le (magnitude : Nat) : highAt magnitude ≤ 4 * binade * stepAt magnitude := by
  have most := unitsAt_succ_le magnitude
  have next := unitsAt_succ magnitude
  rw [highAt]
  rw [Nat.mul_assoc] at most ⊢
  omega

-----------------------------------------------------------------------------------------
-- Between the midpoints
-----------------------------------------------------------------------------------------

/-- A quotient lies between the midpoints to the neighbours of a magnitude, which count when that is even. -/
def Encloses (magnitude num den : Nat) : Prop :=
  if magnitude % 2 = 0 then lowAt magnitude * den ≤ 2 * num ∧ 2 * num ≤ highAt magnitude * den
  else lowAt magnitude * den < 2 * num ∧ 2 * num < highAt magnitude * den

theorem Encloses.between {magnitude num den : Nat} (encloses : Encloses magnitude num den)
    : lowAt magnitude * den ≤ 2 * num ∧ 2 * num ≤ highAt magnitude * den := by
  rw [Encloses] at encloses
  split at encloses
  next => exact encloses
  next => exact ⟨Nat.le_of_lt encloses.1, Nat.le_of_lt encloses.2⟩

theorem encloses_unitsAt {magnitude : Nat} (positive : 0 < magnitude)
    : Encloses magnitude (unitsAt magnitude) 1 := by
  have below := unitsAt_lt (Nat.sub_lt positive Nat.one_pos)
  have above : unitsAt magnitude < unitsAt (magnitude + 1) := unitsAt_lt (Nat.lt_succ_self magnitude)
  rw [Encloses, lowAt, highAt]
  split <;> omega

/-- The quotients that two magnitudes enclose do not overlap: a midpoint between neighbours counts for the
even one.
-/
theorem Encloses.le {left right num den : Nat} (positive : 0 < den) (first : Encloses left num den)
    (second : Encloses right num den)
    : left ≤ right := by
  refine Nat.not_lt.mp fun below => ?_
  have least := first.between.1
  have most := second.between.2
  rcases Nat.lt_or_eq_of_le (Nat.succ_le_of_lt below) with apart | rfl
  · have before : right < left - 1 := by omega
    have high : highAt right < lowAt left :=
      Nat.add_lt_add_of_lt_of_le (unitsAt_lt before) (unitsAt_mono below)
    have strict := Nat.mul_lt_mul_of_pos_right high positive
    omega
  · have same : lowAt (right + 1) = highAt right := rfl
    rw [Nat.succ_eq_add_one, same] at least
    rw [Encloses] at first second
    split at second
    next =>
      have odd : ¬(right + 1) % 2 = 0 := by omega
      rw [Nat.succ_eq_add_one, if_neg odd, same] at first
      omega
    next => omega

theorem Encloses.unique {left right num den : Nat} (positive : 0 < den) (first : Encloses left num den)
    (second : Encloses right num den)
    : left = right :=
  Nat.le_antisymm (first.le positive second) (second.le positive first)

-----------------------------------------------------------------------------------------
-- Rounding stays between the midpoints
-----------------------------------------------------------------------------------------

/-- A rounded quotient is at most half a unit away, and less if it is odd. -/
theorem roundQuotient_near (num : Nat) {den : Nat} (positive : 0 < den)
    : let rounded := roundQuotient num den
      if rounded % 2 = 0 then
        2 * (rounded * den) ≤ 2 * num + den ∧ 2 * num ≤ 2 * (rounded * den) + den
      else 2 * (rounded * den) < 2 * num + den ∧ 2 * num < 2 * (rounded * den) + den := by
  have split_ := Nat.div_add_mod num den
  have excess := Nat.mod_lt num positive
  have next : (num / den + 1) * den = num / den * den + den := Nat.succ_mul _ _
  rw [Nat.mul_comm] at split_
  simp only [roundQuotient]
  split
  next => split <;> omega
  next =>
    split
    next =>
      rw [next]
      split <;> omega
    next =>
      rcases Nat.mod_two_eq_zero_or_one (num / den) with even | odd
      · rw [even, Nat.add_zero, if_pos even]
        omega
      · rw [odd, next, if_pos (by omega)]
        omega

section Place

variable {step place : Nat}

/-- A significand that is full, unless the step is the least, stands for that many steps. -/
theorem unitsAt_place (least : step = 0 ∨ binade ≤ place) (most : place ≤ 2 * binade)
    : unitsAt (step * binade + place) = place * 2 ^ step := by
  rcases Nat.lt_or_ge place binade with low | full
  · obtain rfl := least.resolve_right (Nat.not_le.mpr low)
    rw [Nat.zero_mul, Nat.zero_add, unitsAt_subnormal low, Nat.pow_zero, Nat.mul_one]
  rcases Nat.lt_or_eq_of_le most with below | rfl
  · obtain ⟨excess, rfl⟩ := Nat.exists_eq_add_of_le full
    have start : step * binade + (binade + excess) = binade * (step + 1) + excess := by
      rw [Nat.mul_succ, Nat.mul_comm step, Nat.add_assoc]
    rw [start, unitsAt_normal (by omega)]
  · have start : step * binade + 2 * binade = binade * (step + 1 + 1) + 0 := by
      rw [Nat.mul_succ, Nat.mul_succ, Nat.mul_comm step]
      omega
    rw [start, unitsAt_normal (by decide), Nat.pow_succ, Nat.add_zero, Nat.mul_comm 2, Nat.mul_assoc,
      Nat.mul_comm (2 ^ step)]

theorem le_stepAt_place (least : step = 0 ∨ binade ≤ place) : 2 ^ step ≤ stepAt (step * binade + place) := by
  refine Nat.pow_le_pow_right (by decide) ?_
  have whole : (step * binade + place) / binade = step + place / binade := by
    rw [Nat.mul_comm, Nat.mul_add_div (by decide)]
  rw [whole]
  rcases least with rfl | full
  · exact Nat.zero_le _
  · have some : 0 < place / binade := Nat.div_pos full (by decide)
    omega

/-- The midpoint below is half a step away. Only below a full significand the steps are halved, and there is
nothing below zero.
-/
theorem lowAt_place (least : step = 0 ∨ binade ≤ place) (most : place ≤ 2 * binade)
    : lowAt (step * binade + place) + 2 ^ step ≤ 2 * (place * 2 ^ step)
      ∨ lowAt (step * binade + place) ≤ 2 * (place * 2 ^ step)
        ∧ (place = 0 ∨ place = binade ∧ step ≠ 0) := by
  have units := unitsAt_place least most
  have below := lowAt_le (step * binade + place)
  by_cases inside : 0 < place ∧ (step = 0 ∨ binade < place)
  · refine .inl ?_
    obtain ⟨count, rfl⟩ := Nat.exists_eq_succ_of_ne_zero (Nat.ne_of_gt inside.1)
    have before := unitsAt_place (inside.2.imp_right Nat.le_of_lt_succ) (Nat.le_of_succ_le most)
    have start : step * binade + (count + 1) - 1 = step * binade + count := by
      rw [← Nat.add_assoc, Nat.add_sub_cancel]
    rw [lowAt, units, Nat.succ_eq_add_one, start, before, Nat.succ_mul]
    omega
  · refine .inr ⟨units ▸ below, ?_⟩
    omega

theorem place_parity : (step * binade + place) % 2 = place % 2 := by
  have even : binade = 2 * (binade / 2) := by decide
  rw [even, Nat.mul_left_comm]
  omega

end Place

/-- Rounding gives a magnitude that encloses the quotient. -/
theorem encloses_nearestMagnitude (num : Nat) {den : Nat} (positive : 0 < den)
    : Encloses (nearestMagnitude num den) num den := by
  obtain ⟨step, exponent⟩ : ∃ step, Nat.log2 (num / den) - 52 = step := ⟨_, rfl⟩
  obtain ⟨place, rounded⟩ : ∃ place, roundQuotient num (den * 2 ^ step) = place := ⟨_, rfl⟩
  have nearest : nearestMagnitude num den = step * binade + place := by
    rw [← rounded, ← exponent]
    rfl
  have below : num / (den * 2 ^ step) < 2 * binade := significand_lt exponent
  have full : step = 0 ∨ binade ≤ num / (den * 2 ^ step) := le_significand exponent
  have least := le_roundQuotient num (den * 2 ^ step)
  have most := roundQuotient_le num (den * 2 ^ step)
  have near := roundQuotient_near num (Nat.mul_pos positive (Nat.pow_pos (by decide) : 0 < 2 ^ step))
  simp only [rounded] at near least most
  have fullPlace : step = 0 ∨ binade ≤ place := full.imp_right fun full => Nat.le_trans full least
  have fits : place ≤ 2 * binade := by omega
  have exact_ : 2 * (place * 2 ^ step) * den = 2 * (place * (den * 2 ^ step)) := by
    rw [Nat.mul_assoc, Nat.mul_assoc place, Nat.mul_comm den]
  have high : 2 * (place * (den * 2 ^ step)) + den * 2 ^ step ≤ highAt (step * binade + place) * den := by
    have step_ := Nat.mul_le_mul_right den (le_stepAt_place fullPlace)
    rw [highAt_eq, unitsAt_place fullPlace fits, Nat.add_mul, exact_, Nat.mul_comm den]
    omega
  rw [nearest, Encloses, place_parity]
  rcases lowAt_place fullPlace fits with half | ⟨low, edge⟩
  · have low := Nat.mul_le_mul_right den half
    rw [Nat.add_mul, exact_, Nat.mul_comm (2 ^ step)] at low
    split at near
    next even => rw [if_pos even]; omega
    next odd => rw [if_neg odd]; omega
  · have low := Nat.mul_le_mul_right den low
    have reached : place * (den * 2 ^ step) ≤ num := by
      rcases edge with rfl | ⟨rfl, some⟩
      · rw [Nat.zero_mul]
        exact Nat.zero_le _
      · exact Nat.mul_le_of_le_div _ _ _ (full.resolve_left some)
    have even : place % 2 = 0 := by
      rcases edge with rfl | ⟨rfl, -⟩ <;> decide
    rw [if_pos even] at near ⊢
    omega

/-- A quotient is rounded to the magnitude that encloses it. -/
theorem Encloses.nearestMagnitude_eq {magnitude num den : Nat} (positive : 0 < den)
    (encloses : Encloses magnitude num den)
    : nearestMagnitude num den = magnitude :=
  (encloses_nearestMagnitude num positive).unique positive encloses

end PersonRegistry.Binary64
