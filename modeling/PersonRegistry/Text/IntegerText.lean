/-! Integers written in decimal digits, read within the bounds of a fixed width. -/

namespace PersonRegistry.Text

/-- The bounds of a whole number. A sign may be a minus only where negative numbers fit. -/
structure IntegerRange where
  below : Nat
  above : Nat

namespace IntegerRange

def signed32 : IntegerRange := ⟨0x80000000, 0x7fffffff⟩

def signed64 : IntegerRange := ⟨0x8000000000000000, 0x7fffffffffffffff⟩

def unsigned64 : IntegerRange := ⟨0, 0xffffffffffffffff⟩

def unsigned16 : IntegerRange := ⟨0, 0xffff⟩

def holds (range : IntegerRange) (n : Int) : Bool :=
  -(range.below : Int) ≤ n && n ≤ (range.above : Int)

end IntegerRange

/-- Why a text is no integer of a range. -/
inductive IntegerFlaw
  | empty
  | badDigit
  | tooLarge
  | tooSmall
  deriving DecidableEq, Repr

def IntegerFlaw.message : IntegerFlaw → String
  | .empty => "cannot parse integer from empty string"
  | .badDigit => "invalid digit found in string"
  | .tooLarge => "number too large to fit in target type"
  | .tooSmall => "number too small to fit in target type"

def digitValue? (c : Char) : Option Nat :=
  if '0' ≤ c && c ≤ '9' then some (c.toNat - '0'.toNat) else none

/-- Reads digits onto `value`, stopping at the first that is none or that leads beyond `bound`. -/
def readDigits (bound : Nat) (beyond : IntegerFlaw) : Nat → List Char → Except IntegerFlaw Nat
  | value, [] => .ok value
  | value, c :: rest =>
      match digitValue? c with
      | none => .error .badDigit
      | some digit =>
          if bound < value * 10 + digit then .error beyond
          else readDigits bound beyond (value * 10 + digit) rest

/-- Reads an integer: an optional sign, then at least one digit. A minus is no sign where negative
numbers do not fit.
-/
def readInteger (range : IntegerRange) : List Char → Except IntegerFlaw Int
  | [] => .error .empty
  | ['+'] | ['-'] => .error .badDigit
  | '+' :: digits => (readDigits range.above .tooLarge 0 digits).map Int.ofNat
  | '-' :: digits =>
      if range.below = 0 then .error .badDigit
      else (readDigits range.below .tooSmall 0 digits).map (fun value => -(value : Int))
  | digits => (readDigits range.above .tooLarge 0 digits).map Int.ofNat

def decimalDigits (n : Nat) : List Char :=
  Nat.toDigits 10 n

/-- An integer in decimal digits, with a minus in front when it is negative. -/
def decimalInteger (n : Int) : List Char :=
  if n < 0 then '-' :: decimalDigits n.natAbs else decimalDigits n.natAbs

/-- A number in decimal digits, filled with zeros on the left up to a width. -/
def paddedDigits (width n : Nat) : List Char :=
  let digits := decimalDigits n
  List.replicate (width - digits.length) '0' ++ digits

end PersonRegistry.Text
