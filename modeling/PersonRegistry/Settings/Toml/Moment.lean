import PersonRegistry.Number.ExtendedReal

/-! Dates and times of a settings file. They are kept as texts in one standard form. -/

namespace PersonRegistry.Settings.Toml

open Text (paddedDigits)

/-- Takes a number of exactly so many digits, within bounds, off the front. -/
def takeNumber (width least most : Nat) (chars : List Char) : Option (Nat × List Char) :=
  let digits := chars.take width
  let value := DecimalParts.digitsValue digits
  if digits.length = width && digits.all DecimalParts.isDigit && least ≤ value && value ≤ most then
    some (value, chars.drop width)
  else none

def takeChar (c : Char) : List Char → Option (List Char)
  | [] => none
  | other :: rest => if other = c then some rest else none

def daysInMonth (year month : Nat) : Nat :=
  if month = 2 then
    if year % 4 = 0 && (year % 100 ≠ 0 || year % 400 = 0) then 29 else 28
  else if [4, 6, 9, 11].contains month then 30
  else 31

/-- Takes a date off the front: its text, and what follows. -/
def takeDate (chars : List Char) : Option (List Char × List Char) := do
  let (year, rest) ← takeNumber 4 0 9999 chars
  let rest ← takeChar '-' rest
  let (month, rest) ← takeNumber 2 1 12 rest
  let rest ← takeChar '-' rest
  let (day, rest) ← takeNumber 2 1 (daysInMonth year month) rest
  some (paddedDigits 4 year ++ '-' :: paddedDigits 2 month ++ '-' :: paddedDigits 2 day, rest)

/-- Takes a fraction of a second off the front, if there is one. Nine digits of it count, and zeros at
the end of them do not.
-/
def takeFraction : List Char → Option (List Char × List Char)
  | '.' :: rest =>
      let digits := rest.takeWhile DecimalParts.isDigit
      let kept := ((digits.take 9).reverse.dropWhile (· = '0')).reverse
      if digits.isEmpty then none
      else some (if kept.isEmpty then [] else '.' :: kept, rest.dropWhile DecimalParts.isDigit)
  | rest => some ([], rest)

/-- Takes a time of day off the front. A minute may have a leap second. -/
def takeTime (chars : List Char) : Option (List Char × List Char) := do
  let (hour, rest) ← takeNumber 2 0 23 chars
  let rest ← takeChar ':' rest
  let (minute, rest) ← takeNumber 2 0 59 rest
  let rest ← takeChar ':' rest
  let (second, rest) ← takeNumber 2 0 60 rest
  let (fraction, rest) ← takeFraction rest
  some (paddedDigits 2 hour ++ ':' :: paddedDigits 2 minute ++ ':' :: paddedDigits 2 second ++ fraction,
    rest)

/-- Takes an offset from universal time off the front, if there is one. No offset is never negative. -/
def takeOffset : List Char → Option (List Char × List Char)
  | [] => some ([], [])
  | c :: rest =>
      if c = 'Z' || c = 'z' then some (['Z'], rest)
      else if c = '+' || c = '-' then do
        let (hour, rest) ← takeNumber 2 0 23 rest
        let rest ← takeChar ':' rest
        let (minute, rest) ← takeNumber 2 0 59 rest
        let sign := if hour = 0 && minute = 0 then '+' else c
        some (sign :: paddedDigits 2 hour ++ ':' :: paddedDigits 2 minute, rest)
      else some ([], c :: rest)

/-- A time of day with an offset, if the characters are one. -/
def timeWithOffset? (chars : List Char) : Option (List Char) := do
  let (time, rest) ← takeTime chars
  let (offset, rest) ← takeOffset rest
  if rest.isEmpty then some (time ++ offset) else none

/-- A date, a time of day, or both with an offset, if the characters are one. -/
def moment? (chars : List Char) : Option (List Char) :=
  match takeDate chars with
  | some (date, []) => some date
  | some (date, mark :: rest) =>
      if mark = 'T' || mark = 't' || mark = ' ' then
        (timeWithOffset? rest).map fun time => date ++ 'T' :: time
      else none
  | none =>
      match takeTime chars with
      | some (time, []) => some time
      | _ => none

end PersonRegistry.Settings.Toml
