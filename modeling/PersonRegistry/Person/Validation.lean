import PersonRegistry.Person.Draft
import PersonRegistry.Person.Filter
import PersonRegistry.Text.IntegerText

/-! Which fields of a person, a draft or a filter hold values outside their domain. All of them are
reported, in the order of their names.
-/

namespace PersonRegistry

/-- A field that can be at fault, in the order of the names. -/
inductive CheckedField
  | age
  | gender
  | limit
  | name
  | nationality
  | patronymic
  | surname
  deriving DecidableEq, Repr

def CheckedField.text : CheckedField → String
  | .age => "age"
  | .gender => "gender"
  | .limit => "limit"
  | .name => "name"
  | .nationality => "nationality"
  | .patronymic => "patronymic"
  | .surname => "surname"

/-- What is wrong with the value of a field. -/
inductive Reason
  | required
  | notLetters
  | outside (least most : Nat)
  | notGender
  | notCountryCode
  | notLimit
  deriving DecidableEq, Repr

def listed (values : List String) : String := String.intercalate ", " values

/-- What is wrong, in words that follow the name of the field. -/
def Reason.message : Reason → String
  | .required => "is required"
  | .notLetters => "must contain only letters"
  | .outside least most => s!"must be between {least} and {most}"
  | .notGender => "must be one of " ++ listed genders
  | .notCountryCode => "must be a two-letter uppercase country code"
  | .notLimit =>
      "must be one of "
        ++ listed (Filter.allowedLimits.map fun n => String.ofList (Text.decimalDigits n))

/-- The fields at fault, in the order of their names, with what is wrong. -/
abbrev Faults := List (CheckedField × Reason)

namespace Faults

def message (faults : Faults) : String :=
  match faults.map fun fault => fault.1.text ++ " " ++ fault.2.message with
  | [] => "validation failed"
  | parts => "validation failed: " ++ String.intercalate "; " parts

def ofChecks (checks : List (CheckedField × Option Reason)) : Faults :=
  checks.filterMap fun check => check.2.map (check.1, ·)

end Faults

/-- The age from which on nobody is on record. -/
def ageBound : Nat := 150

def checkRequired (s : String) : Option Reason :=
  if s = "" then some .required
  else if isAlphabetic s then none
  else some .notLetters

/-- Checks a name part that may be missing or empty. -/
def checkOptional (s : Option String) : Option Reason :=
  match s with
  | none => none
  | some s => if s = "" || isAlphabetic s then none else some .notLetters

def checkGender (s : String) : Option Reason :=
  if genders.contains s then none else some .notGender

def checkNationality (s : String) : Option Reason :=
  if isCountryCode s then none else some .notCountryCode

def checkGiven (check : α → Option Reason) : Option α → Option Reason
  | none => some .required
  | some value => check value

/-- Checks the age of a person: above zero and below the bound. -/
def checkAge (age : Int32) : Option Reason :=
  if age.toInt ≤ 0 || (ageBound : Int) ≤ age.toInt then some (.outside 1 (ageBound - 1)) else none

/-- Checks an age asked for: zero and the bound may be asked for too. -/
def checkAgeWanted (age : Int32) : Option Reason :=
  if age.toInt < 0 || (ageBound : Int) < age.toInt then some (.outside 0 ageBound) else none

def checkLimit (limit : Nat) : Option Reason :=
  if Filter.allowedLimits.contains limit then none else some .notLimit

def Draft.faults (draft : Draft) : Faults :=
  .ofChecks
    [(.name, checkRequired draft.name),
      (.patronymic, checkOptional draft.patronymic),
      (.surname, checkRequired draft.surname)]

/-- The faults of a person who is to be stored. -/
def Person.faults (p : Person) : Faults :=
  .ofChecks
    [(.age, checkGiven checkAge p.age),
      (.gender, checkGiven checkGender p.gender),
      (.name, checkRequired p.name),
      (.nationality, checkGiven checkNationality p.nationality),
      (.patronymic, checkOptional p.patronymic),
      (.surname, checkRequired p.surname)]

def Filter.faults (filter : Filter) : Faults :=
  .ofChecks
    [(.age, filter.age.bind checkAgeWanted),
      (.gender, filter.gender.bind checkGender),
      (.limit, filter.limit.bind checkLimit),
      (.name, checkOptional filter.name),
      (.nationality, filter.nationality.bind checkNationality),
      (.patronymic, checkOptional filter.patronymic),
      (.surname, checkOptional filter.surname)]

end PersonRegistry
