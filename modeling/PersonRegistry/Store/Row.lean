import PersonRegistry.Person.Basic
import PersonRegistry.Person.Filter
import PersonRegistry.Store.Like
import PersonRegistry.Time.Instant

/-! A row of the table of persons: the fields as columns, the search keys of the name parts, and when the
row was written.
-/

namespace PersonRegistry.Store

open Time (Instant)

inductive Error
  /-- A condition has a pattern beyond the limit. -/
  | patternTooLong
  /-- A row of the same identifier is there already. -/
  | duplicateId
  /-- The identifier of a row cannot be read. -/
  | badId (flaw : Uuid.Flaw)
  /-- A call of the given name cannot be made. -/
  | down (call : String)
  deriving DecidableEq, Repr

def Error.message : Error → String
  | .patternTooLong => "database error: Rusqlite(\"LIKE or GLOB pattern too complex\")"
  | .duplicateId => "database error: Rusqlite(\"UNIQUE constraint failed: people.person_id\")"
  | .badId flaw => "uuid parse error: " ++ flaw.message
  | .down call => call ++ " is down"

/-- A row. Deleted rows stay in the table, marked. -/
structure Row where
  personId : String
  name : String
  surname : String
  patronymic : Option String
  age : Option Int32
  gender : Option String
  nationality : Option String
  nameKey : String
  surnameKey : String
  patronymicKey : Option String
  createdAt : String
  updatedAt : String
  isDeleted : Bool
  deriving DecidableEq, Repr

namespace Row

def ofPerson (id : Uuid) (now : Instant) (p : Person) : Row where
  personId := id.text
  name := p.name
  surname := p.surname
  patronymic := p.patronymic
  age := p.age
  gender := p.gender
  nationality := p.nationality
  nameKey := searchKey p.name
  surnameKey := searchKey p.surname
  patronymicKey := p.patronymic.map searchKey
  createdAt := now.text
  updatedAt := now.text
  isDeleted := false

/-- The row with the fields of a person written over its own. -/
def overwritten (row : Row) (now : Instant) (p : Person) : Row :=
  { row with
    name := p.name
    surname := p.surname
    patronymic := p.patronymic
    age := p.age
    gender := p.gender
    nationality := p.nationality
    nameKey := searchKey p.name
    surnameKey := searchKey p.surname
    patronymicKey := p.patronymic.map searchKey
    updatedAt := now.text }

def deleted (row : Row) (now : Instant) : Row :=
  { row with isDeleted := true, updatedAt := now.text }

/-- A row that is not deleted and belongs to an identifier. -/
def isLiveFor (id : Uuid) (row : Row) : Bool := !row.isDeleted && row.personId = id.text

def person (row : Row) : Except Error Person :=
  match Uuid.ofText row.personId with
  | .error flaw => .error (.badId flaw)
  | .ok id =>
      .ok
        { id := some id
          name := row.name
          surname := row.surname
          patronymic := row.patronymic
          age := row.age
          gender := row.gender
          nationality := row.nationality }

end Row

/-- A condition on a search key. A pattern beyond the limit fails on any key, even a missing one. -/
def keyCondition (pattern : Option String) (key : Option String) : Except Error Bool :=
  match pattern with
  | none => .ok true
  | some pattern =>
      if isTooLong pattern then .error .patternTooLong
      else .ok (key.any (isLike pattern))

/-- A condition on a field: the value asked for, if one is, stands in it. -/
def fieldCondition [DecidableEq α] (wanted value : Option α) : Bool :=
  match wanted with
  | none => true
  | some wanted => value = some wanted

/-- A row fulfils a filter. The conditions are tried in order, and the first that does not hold ends
the trial.
-/
def Row.fulfils (filter : Filter) (row : Row) : Except Error Bool := do
  if row.isDeleted then return false
  unless ← keyCondition (filter.name.map startPattern) (some row.nameKey) do return false
  unless ← keyCondition (filter.surname.map startPattern) (some row.surnameKey) do return false
  unless ← keyCondition (filter.patronymic.map startPattern) row.patronymicKey do return false
  return fieldCondition filter.age row.age && fieldCondition filter.gender row.gender
    && fieldCondition filter.nationality row.nationality

end PersonRegistry.Store
