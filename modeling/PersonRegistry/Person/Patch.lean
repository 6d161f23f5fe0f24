import PersonRegistry.Person.Draft

/-! A change to some fields of a person. -/

namespace PersonRegistry

/-- New values for the fields that are to change. -/
structure Patch where
  name : Option String := none
  surname : Option String := none
  patronymic : Option String := none
  age : Option Int32 := none
  gender : Option String := none
  nationality : Option String := none
  deriving DecidableEq, Repr

namespace Patch

def isEmpty (patch : Patch) : Bool := patch = {}

/-- The person with the new values. An empty patronymic takes the patronymic away. -/
def apply (patch : Patch) (p : Person) : Person :=
  { p with
    name := patch.name.getD p.name
    surname := patch.surname.getD p.surname
    patronymic :=
      match patch.patronymic with
      | some patronymic => nonempty? patronymic
      | none => p.patronymic
    age := patch.age <|> p.age
    gender := patch.gender <|> p.gender
    nationality := patch.nationality <|> p.nationality }

end Patch
end PersonRegistry
