import PersonRegistry.Text.Alphabetic
import PersonRegistry.Uuid

/-! A person: the name parts that are given, and the age, gender and nationality inferred from them. -/

namespace PersonRegistry

/-- A person on record, or about to be. The identifier is missing until the record is stored, the
inferred fields until they are looked up.
-/
structure Person where
  id : Option Uuid := none
  name : String := ""
  surname : String := ""
  patronymic : Option String := none
  age : Option Int32 := none
  gender : Option String := none
  nationality : Option String := none
  deriving DecidableEq, Repr

instance : Inhabited Person := ⟨{}⟩

def genders : List String := ["male", "female"]

/-- A text has at least one character, and letters only. -/
def isAlphabetic (s : String) : Bool :=
  !s.toList.isEmpty && s.toList.all Text.isAlphabeticChar

def isLatinCapital (c : Char) : Bool := 'A' ≤ c && c ≤ 'Z'

/-- A text has the form of a country code: two Latin capitals. -/
def isCountryCode (s : String) : Bool :=
  s.toList.length = 2 && s.toList.all isLatinCapital

namespace Person

def isEnriched (p : Person) : Bool :=
  p.age.any (0 < ·) && p.gender.any genders.contains && p.nationality.any isCountryCode

end Person
end PersonRegistry
