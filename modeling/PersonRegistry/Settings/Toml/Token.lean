import PersonRegistry.Settings.Setting
import PersonRegistry.Settings.Toml.Moment
import PersonRegistry.Settings.Toml.Scan

/-! Values that stand without quotes: truth values, numbers, dates and times. Such a token ends at a space,
a comma, a bracket, a comment or the end of the line, so it can be judged as a whole.
-/

namespace PersonRegistry.Settings.Toml

open Text (IntegerRange)

def endsToken (c : Char) : Bool :=
  isSpace c || c = '\n' || c = '\r' || c = ',' || c = ']' || c = '\x7d' || c = '#'

/-- The digits without the underscores between them. Each underscore must have a digit on either side.
-/
def withoutUnderscores? (isDigit : Char → Bool) : (afterDigit : Bool) → List Char → Option (List Char)
  | _, [] => some []
  | afterDigit, '_' :: c :: rest =>
      if afterDigit && isDigit c then (withoutUnderscores? isDigit true rest).map (c :: ·) else none
  | _, c :: rest =>
      if c = '_' then none else (withoutUnderscores? isDigit (isDigit c) rest).map (c :: ·)

/-- An integer that fits 64 bits with a sign. -/
def word? (n : Int) : Option Setting :=
  if IntegerRange.signed64.holds n then some (.integer n) else none

/-- An integer in another base than ten, by its digits. -/
def basedInteger? (base : Nat) (chars : List Char) : Option Setting := do
  let digits ← withoutUnderscores? (fun c => (baseDigit? base c).isSome) false chars
  if digits.isEmpty then none
  else
    let n ← digits.foldlM (fun n c => (baseDigit? base c).map (n * base + ·)) 0
    word? n

/-- A whole part is not empty and has no zero in front of other digits. -/
def isWholePart : List Char → Bool
  | [] => false
  | '0' :: rest => rest.isEmpty
  | _ => true

/-- A number in base ten. No number beyond the largest one may be given, but one below the least. -/
def decimalNumber? (chars : List Char) : Option Setting := do
  let chars ← withoutUnderscores? DecimalParts.isDigit false chars
  let parts ← DecimalParts.ofChars? chars
  if !isWholePart parts.whole || parts.fraction.any (·.isEmpty)
      || parts.exponent.any (·.2.isEmpty) then none
  else
    match parts.fraction, parts.exponent with
    | none, none =>
        let n := DecimalParts.digitsValue parts.whole
        word? (if parts.negative then -(n : Int) else n)
    | _, _ =>
        match ExtendedReal.ofParts parts with
        | .infinite false => none
        | x => some (.real x)

/-- A number, or a word for what is no finite number. -/
def number? (chars : List Char) : Option Setting :=
  match chars with
  | '0' :: 'x' :: digits => basedInteger? 16 digits
  | '0' :: 'o' :: digits => basedInteger? 8 digits
  | '0' :: 'b' :: digits => basedInteger? 2 digits
  | chars =>
      match DecimalParts.takeSign chars with
      | (negative, ['i', 'n', 'f']) => some (.real (.infinite negative))
      | (_, ['n', 'a', 'n']) => some (.real .undefined)
      | _ => decimalNumber? chars

def tokenSetting? (chars : List Char) : Option Setting :=
  match String.ofList chars with
  | "true" => some (.boolean true)
  | "false" => some (.boolean false)
  | _ =>
      match moment? chars with
      | some text => some (.text (String.ofList text))
      | none => number? chars

/-- Reads a token. A date may be followed by a space and the time, which then belongs to it. -/
def token : Scan Setting := fun rest =>
  let first := rest.takeWhile (!endsToken ·)
  let after := rest.dropWhile (!endsToken ·)
  let longer : Option (Setting × List Char) :=
    match after with
    | ' ' :: more =>
        let second := more.takeWhile (!endsToken ·)
        if second.isEmpty then none
        else
          (moment? (first ++ ' ' :: second)).map fun text =>
            (.text (String.ofList text), more.dropWhile (!endsToken ·))
    | _ => none
  match longer with
  | some found => some found
  | none => (tokenSetting? first).map (·, after)

end PersonRegistry.Settings.Toml
