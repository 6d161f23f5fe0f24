import PersonRegistry.Number.Binary64

/-! A whole number times a power of ten, by one rounded multiplication or division. The result is close
to the exact value but not always the number nearest to it.
-/

namespace PersonRegistry.Binary64

/-- The number nearest to a power of ten, up to the largest power that is finite. -/
def powerOfTen (exponent : Nat) : Binary64 :=
  (ofNat? (Nat.pow 10 exponent)).getD zero

/-- Divides by 10 to the power 308 as often as told, or until nothing is left. -/
def shrink : Nat → Binary64 → Binary64
  | 0, x => x
  | times + 1, x =>
      if x.magnitude = 0 then x else shrink times ((x.div? (powerOfTen 308)).getD zero)

/-- A significand times a power of ten, each step rounded; nothing if that is too large. -/
def scaled? (significand : Nat) (exponent : Int) : Option Binary64 :=
  let x := (ofNat? significand).getD zero
  if 0 ≤ exponent then
    if exponent ≤ 308 then x.mul? (powerOfTen exponent.toNat)
    else if x.magnitude = 0 then some x
    else none
  else
    let size := exponent.natAbs
    let times := (size - 1) / 308
    let x := shrink times x
    if x.magnitude = 0 then some x else x.div? (powerOfTen (size - 308 * times))

end PersonRegistry.Binary64
