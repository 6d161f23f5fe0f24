import PersonRegistry.Text.IntegerText

/-! Instants of universal time and their text, whose order is the order of time within four-digit
years.
-/

namespace PersonRegistry.Time

/-- An instant: whole seconds since 1970, and nanoseconds beyond them. A leap second is the second
before it with a thousand million nanoseconds or more.
-/
structure Instant where
  seconds : Int
  nanoseconds : Nat
  deriving DecidableEq, Repr

structure Date where
  year : Int
  month : Nat
  day : Nat
  deriving DecidableEq, Repr

def daysOfEra : Int := 146097

/-- The year of its era, counted from zero, that a day of the era lies in. -/
def yearOfEra (dayOfEra : Nat) : Nat :=
  (dayOfEra - dayOfEra / 1460 + dayOfEra / 36524 - dayOfEra / 146096) / 365

/-- The days of an era that lie before a year. -/
def daysBefore (yearOfEra : Nat) : Nat :=
  365 * yearOfEra + yearOfEra / 4 - yearOfEra / 100

/-- A day of a year that is counted from March, so that a leap day is its last. -/
def Date.ofMarch (year : Int) (dayOfYear : Nat) : Date :=
  let monthFromMarch := (5 * dayOfYear + 2) / 153
  let day := dayOfYear - (153 * monthFromMarch + 2) / 5 + 1
  if monthFromMarch < 10 then ⟨year, monthFromMarch + 3, day⟩
  else ⟨year + 1, monthFromMarch - 9, day⟩

/-- The day that lies a number of days after 1970-01-01, by eras of four hundred years from March. -/
def Date.ofDays (days : Int) : Date :=
  let shifted := days + 719468
  let dayOfEra := (shifted % daysOfEra).toNat
  let year := yearOfEra dayOfEra
  .ofMarch (shifted / daysOfEra * 400 + year) (dayOfEra - daysBefore year)

namespace Instant

def epoch : Instant := ⟨0, 0⟩

/-- The instant a number of milliseconds after the start of 1970. -/
def ofMilliseconds (milliseconds : Nat) : Instant :=
  ⟨milliseconds / 1000, milliseconds % 1000 * 1000000⟩

def date (t : Instant) : Date := Date.ofDays (t.seconds / 86400)

def secondOfDay (t : Instant) : Nat := (t.seconds % 86400).toNat

def firstYear : Int := -262143

def lastYear : Int := 262142

/-- An instant by its parts. A leap second can only follow the last second of a minute. -/
def ofParts? (seconds : Int) (nanoseconds : Nat) : Option Instant :=
  let t : Instant := ⟨seconds, nanoseconds⟩
  if t.date.year < firstYear || lastYear < t.date.year then none
  else if nanoseconds < 1000000000 then some t
  else if nanoseconds < 2000000000 && t.secondOfDay % 60 = 59 then some t
  else none

/-- A year in four digits, or with its sign if that is not enough. -/
def yearChars (year : Int) : List Char :=
  if 0 ≤ year && year ≤ 9999 then Text.paddedDigits 4 year.natAbs
  else (if year < 0 then '-' else '+') :: Text.paddedDigits 4 year.natAbs

/-- An instant to the microsecond. A leap second is the sixtieth of its minute. -/
def chars (t : Instant) : List Char :=
  let date := t.date
  let second := t.secondOfDay % 60 + t.nanoseconds / 1000000000
  let microsecond := t.nanoseconds % 1000000000 / 1000
  yearChars date.year ++ '-' :: Text.paddedDigits 2 date.month ++ '-' :: Text.paddedDigits 2 date.day
    ++ 'T' :: Text.paddedDigits 2 (t.secondOfDay / 3600)
    ++ ':' :: Text.paddedDigits 2 (t.secondOfDay / 60 % 60)
    ++ ':' :: Text.paddedDigits 2 second
    ++ '.' :: Text.paddedDigits 6 microsecond ++ ['Z']

def text (t : Instant) : String := String.ofList t.chars

end Instant
end PersonRegistry.Time
