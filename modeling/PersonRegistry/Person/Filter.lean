import PersonRegistry.Person.Basic

/-! What a listing asks for: conditions on the fields, and a page. -/

namespace PersonRegistry

/-- Conditions that the persons of a listing fulfil. Name parts ask for a start of the part in either
case, the other fields for equality.
-/
structure Filter where
  name : Option String := none
  surname : Option String := none
  patronymic : Option String := none
  age : Option Int32 := none
  gender : Option String := none
  nationality : Option String := none
  limit : Option Nat := none
  offset : Option Nat := none
  deriving DecidableEq, Repr

namespace Filter

def defaultLimit : Nat := 10

def allowedLimits : List Nat := [10, 30, 50, 100]

def pageSize (filter : Filter) : Nat := filter.limit.getD defaultLimit

def pageStart (filter : Filter) : Nat := filter.offset.getD 0

end Filter
end PersonRegistry
