import PersonRegistry.Number.Binary64

/-! The shortest decimal that reads back as a given number. The decimals that read back form an
interval between the midpoints to both neighbours; the coarsest grid of powers of ten with a point in
it gives the fewest digits.
-/

namespace PersonRegistry.Binary64

structure Decimal where
  digits : Nat
  exponent : Int
  deriving DecidableEq, Repr

/-- The decimal at a grid point reads back as the magnitude: it lies between the midpoints to both
neighbours, which count only when the magnitude is even. Both sides are in half units.
-/
def readsBackAt (magnitude : Nat) (exponent : Int) (digits : Nat) : Bool :=
  let low := unitsAt (magnitude - 1) + unitsAt magnitude
  let high := unitsAt magnitude + unitsAt (magnitude + 1)
  let point := digits * (2 * one) * Nat.pow 10 exponent.toNat
  let scale := Nat.pow 10 (-exponent).toNat
  if magnitude % 2 = 0 then decide (low * scale ≤ point ∧ point ≤ high * scale)
  else decide (low * scale < point ∧ point < high * scale)

/-- The grid point next to the magnitude that reads back, if one does; of two the nearer one, and of
two equally near the even one.
-/
def gridPoint? (magnitude : Nat) (exponent : Int) : Option Nat :=
  let num := unitsAt magnitude * Nat.pow 10 (-exponent).toNat
  let den := one * Nat.pow 10 exponent.toNat
  let below := num / den
  match readsBackAt magnitude exponent below, readsBackAt magnitude exponent (below + 1) with
  | true, true => some (roundQuotient num den)
  | true, false => some below
  | false, true => some (below + 1)
  | false, false => none

/-- Looks for the coarsest grid with a point that reads back, from `exponent` down. -/
def coarsest (magnitude : Nat) : (steps : Nat) → (exponent : Int) → Decimal
  | 0, exponent => ⟨0, exponent⟩
  | steps + 1, exponent =>
      match gridPoint? magnitude exponent with
      | some digits => ⟨digits, exponent⟩
      | none => coarsest magnitude steps (exponent - 1)

/-- The shortest decimal that reads back as the absolute value. Powers of ten from 309 down to -324
suffice: the largest number lies below the first, the smallest reads back on the last.
-/
def shortest (x : Binary64) : Decimal :=
  if x.magnitude = 0 then ⟨0, 0⟩ else coarsest x.magnitude 634 309

/-- A number is written without an exponent from this power of ten on, and below the next bound. -/
def plainFrom : Int := -5

/-- From this power of ten on a number is written with an exponent. -/
def plainBelow : Int := 16

/-- Digits with a point after the first, unless there is only one. -/
def pointAfterFirst : List Char → List Char
  | [] => []
  | [d] => [d]
  | d :: rest => d :: '.' :: rest

/-- The text of a decimal: positional with at least one digit after the point, or in powers of ten
with the sign of the exponent always written.
-/
def Decimal.text (x : Decimal) : List Char :=
  let digits := Nat.toDigits 10 x.digits
  let power := x.exponent + digits.length - 1
  if plainFrom ≤ power && power < plainBelow then
    if 0 ≤ x.exponent then
      digits ++ List.replicate x.exponent.toNat '0' ++ ['.', '0']
    else if 0 ≤ power then
      digits.take (power.toNat + 1) ++ '.' :: digits.drop (power.toNat + 1)
    else
      '0' :: '.' :: List.replicate (-power - 1).toNat '0' ++ digits
  else
    pointAfterFirst digits ++ 'e' :: (if power < 0 then '-' else '+') :: Nat.toDigits 10 power.natAbs

/-- The text of a number: a minus in front of negative ones, -0 among them. -/
def text (x : Binary64) : List Char :=
  if x.negative then '-' :: x.shortest.text else x.shortest.text

end PersonRegistry.Binary64
