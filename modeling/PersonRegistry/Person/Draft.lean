import PersonRegistry.Person.Basic

/-! What is given to create a person: the name parts. -/

namespace PersonRegistry

/-- The name parts of a person to be created. -/
structure Draft where
  name : String := ""
  surname : String := ""
  patronymic : Option String := none
  deriving DecidableEq, Repr

def nonempty? (s : String) : Option String :=
  if s = "" then none else some s

/-- The person of a draft, before anything is inferred. An empty patronymic is none. -/
def Draft.candidate (draft : Draft) : Person :=
  { name := draft.name
    surname := draft.surname
    patronymic := draft.patronymic.bind nonempty? }

end PersonRegistry
