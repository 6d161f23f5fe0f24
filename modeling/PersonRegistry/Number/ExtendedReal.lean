import PersonRegistry.Number.Shortest
import PersonRegistry.Text.IntegerText

/-! Numbers of the 64-bit binary format together with the values beyond all finite ones, read from
decimals and written without an exponent.
-/

namespace PersonRegistry

/-- A decimal taken apart. Each part holds digits only, and may hold none. -/
structure DecimalParts where
  negative : Bool
  whole : List Char
  /-- What follows the point, if there is one. -/
  fraction : Option (List Char)
  /-- Whether the exponent is negative, and its digits. -/
  exponent : Option (Bool × List Char)
  deriving DecidableEq, Repr

namespace DecimalParts

/-- Takes off a sign: whether it was a minus, and the rest. -/
def takeSign : List Char → Bool × List Char
  | '-' :: rest => (true, rest)
  | '+' :: rest => (false, rest)
  | rest => (false, rest)

def isDigit (c : Char) : Bool := (Text.digitValue? c).isSome

/-- Takes off a point and the digits after it. -/
def takeFraction : List Char → Option (List Char) × List Char
  | '.' :: rest => (some (rest.takeWhile isDigit), rest.dropWhile isDigit)
  | rest => (none, rest)

/-- Takes characters apart as a decimal, if they are one but for missing digits. -/
def ofChars? (chars : List Char) : Option DecimalParts :=
  let (negative, rest) := takeSign chars
  let whole := rest.takeWhile isDigit
  let (fraction, rest) := takeFraction (rest.dropWhile isDigit)
  match rest with
  | [] => some { negative, whole, fraction, exponent := none }
  | mark :: rest =>
      let (down, digits) := takeSign rest
      if (mark = 'e' || mark = 'E') && digits.all isDigit then
        some { negative, whole, fraction, exponent := some (down, digits) }
      else none

def digitsValue (digits : List Char) : Nat :=
  digits.foldl (fun value c => value * 10 + (Text.digitValue? c).getD 0) 0

def decimal (parts : DecimalParts) : Binary64.Decimal :=
  let fraction := parts.fraction.getD []
  let power : Int :=
    match parts.exponent with
    | none => 0
    | some (down, digits) => if down then -(digitsValue digits : Int) else digitsValue digits
  ⟨digitsValue (parts.whole ++ fraction), power - fraction.length⟩

end DecimalParts

namespace Binary64

/-- The number nearest to a decimal, unless that lies beyond all finite numbers. Decimals far above
the largest or far below the smallest number need no calculation.
-/
def nearest? (x : Decimal) : Option Binary64 :=
  let power := x.exponent + (Text.decimalDigits x.digits).length
  if x.digits = 0 || power < -330 then some zero
  else if 310 < power then none
  else ofUnits? (x.digits * one * Nat.pow 10 x.exponent.toNat) (Nat.pow 10 (-x.exponent).toNat)

/-- A decimal without an exponent, and without a point where none is needed. -/
def Decimal.plainText (x : Decimal) : List Char :=
  let digits := Text.decimalDigits x.digits
  let places := (-x.exponent).toNat
  if places = 0 then digits ++ List.replicate x.exponent.toNat '0'
  else
    let padded := List.replicate (places + 1 - digits.length) '0' ++ digits
    padded.take (padded.length - places) ++ '.' :: padded.drop (padded.length - places)

end Binary64

/-- A number of the 64-bit binary format, finite or not. -/
inductive ExtendedReal
  | finite (x : Binary64)
  | infinite (negative : Bool)
  | undefined
  deriving DecidableEq, Repr

namespace ExtendedReal

/-- The number nearest to a decimal, which is infinite beyond all finite ones. -/
def ofParts (parts : DecimalParts) : ExtendedReal :=
  match Binary64.nearest? parts.decimal with
  | some x => .finite (x.withSign parts.negative)
  | none => .infinite parts.negative

/-- Reads a number: a decimal with at least one digit in front of any exponent and one in it, or a word
for what is no finite number, in letters of either case.
-/
def ofChars? (chars : List Char) : Option ExtendedReal :=
  let (negative, word) := DecimalParts.takeSign chars
  match String.ofList (word.map Char.toLower) with
  | "inf" | "infinity" => some (.infinite negative)
  | "nan" => some .undefined
  | _ =>
      match DecimalParts.ofChars? chars with
      | none => none
      | some parts =>
          let digits := parts.whole ++ parts.fraction.getD []
          if digits.isEmpty || parts.exponent.any (·.2.isEmpty) then none else some (ofParts parts)

/-- The text of a number, in as few digits as read back. -/
def text : ExtendedReal → List Char
  | .finite x => if x.negative then '-' :: x.shortest.plainText else x.shortest.plainText
  | .infinite negative => if negative then ['-', 'i', 'n', 'f'] else ['i', 'n', 'f']
  | .undefined => ['N', 'a', 'N']

/-- The natural number up to `most` that is nearest; a half is rounded up. -/
def toNat (most : Nat) : ExtendedReal → Nat
  | .finite x =>
      if x.negative then 0 else min most ((2 * x.units + Binary64.one) / (2 * Binary64.one))
  | .infinite negative => if negative then 0 else most
  | .undefined => 0

end ExtendedReal
end PersonRegistry
