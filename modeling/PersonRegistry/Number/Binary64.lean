/-! Finite binary floating-point numbers of 64 bits, in exact integer arithmetic. A number is a sign and
a magnitude; magnitudes count the non-negative numbers in ascending order from zero.
-/

namespace PersonRegistry

/-- A finite number of the 64-bit binary format. The magnitude is its bit pattern without the sign;
patterns from `0x7ff0000000000000` on stand for no finite number.
-/
structure Binary64 where
  negative : Bool
  magnitude : Nat
  finite : magnitude < 0x7ff0000000000000
  deriving DecidableEq, Repr

namespace Binary64

def zero : Binary64 := ⟨false, 0, by decide⟩

instance : Inhabited Binary64 := ⟨zero⟩

/-- How many magnitudes lie between one power of two and the next: 2 to the power 52. -/
def binade : Nat := 0x10000000000000

/-- How many times 2 to the power -1074 a magnitude is. Every finite number is a multiple of it. -/
def unitsAt (magnitude : Nat) : Nat :=
  let exponent := magnitude / binade
  if exponent = 0 then magnitude
  else (binade + magnitude % binade) * Nat.pow 2 (exponent - 1)

/-- The absolute value in units of 2 to the power -1074. -/
def units (x : Binary64) : Nat := unitsAt x.magnitude

def withSign (negative : Bool) (x : Binary64) : Binary64 := { x with negative }

/-- A quotient rounded to a whole number; a half goes to the even neighbour. -/
def roundQuotient (num den : Nat) : Nat :=
  let quotient := num / den
  let excess := 2 * (num % den)
  if excess < den then quotient
  else if den < excess then quotient + 1
  else quotient + quotient % 2

/-- The magnitude nearest to a quotient of units. Below 2 to the power 53 every whole number of units
is a magnitude; above, the step doubles with each power of two.
-/
def nearestMagnitude (num den : Nat) : Nat :=
  let step := Nat.log2 (num / den) - 52
  step * binade + roundQuotient num (den * Nat.pow 2 step)

/-- The number nearest to a quotient of units, unless that lies beyond all finite numbers. -/
def ofUnits? (num den : Nat) : Option Binary64 :=
  let magnitude := nearestMagnitude num den
  if finite : magnitude < 0x7ff0000000000000 then some ⟨false, magnitude, finite⟩ else none

/-- One, in units of 2 to the power -1074. -/
def one : Nat := Nat.pow 2 1074

def ofNat? (n : Nat) : Option Binary64 := ofUnits? (n * one) 1

def ofInt? (n : Int) : Option Binary64 := (ofNat? n.natAbs).map (withSign (decide (n < 0)))

def mul? (x y : Binary64) : Option Binary64 := ofUnits? (x.units * y.units) one

def div? (x y : Binary64) : Option Binary64 := ofUnits? (x.units * one) y.units

/-- The place of a number in the total order, where -0 comes before 0. -/
def rank (x : Binary64) : Int :=
  if x.negative then -(x.magnitude : Int) - 1 else x.magnitude

end Binary64
end PersonRegistry
