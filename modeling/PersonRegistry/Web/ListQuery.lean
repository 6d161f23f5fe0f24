import PersonRegistry.Person.Filter
import PersonRegistry.Text.IntegerText
import PersonRegistry.Web.FormText

/-! The filter of a listing, as a query spells it. -/

namespace PersonRegistry.Web

open Text (IntegerFlaw IntegerRange Octets)

inductive QueryError
  | duplicate (name : String)
  | notInteger (name : String) (flaw : IntegerFlaw)
  deriving DecidableEq, Repr

def QueryError.message : QueryError → String
  | .duplicate name => s!"duplicate field `{name}`"
  | .notInteger name flaw => name ++ ": " ++ flaw.message

/-- Stores the value of a field in a filter. A field that is not known changes nothing. -/
def storeField (filter : Filter) (name value : String) : Except QueryError Filter :=
  let integer (range : IntegerRange) : Except QueryError Int :=
    (Text.readInteger range value.toList).mapError (.notInteger name)
  match name with
  | "name" => .ok { filter with name := some value }
  | "surname" => .ok { filter with surname := some value }
  | "patronymic" => .ok { filter with patronymic := some value }
  | "age" => return { filter with age := some (Int32.ofInt (← integer .signed32)) }
  | "gender" => .ok { filter with gender := some value }
  | "nationality" => .ok { filter with nationality := some value }
  | "limit" => return { filter with limit := some (← integer .unsigned64).toNat }
  | "offset" => return { filter with offset := some (← integer .unsigned64).toNat }
  | _ => .ok filter

def filterFields : List String :=
  ["name", "surname", "patronymic", "age", "gender", "nationality", "limit", "offset"]

/-- Reads fields into a filter. Each may be given once; `given` holds the names read before. -/
def readFields (filter : Filter) (given : List String) :
    List (String × String) → Except QueryError Filter
  | [] => .ok filter
  | (name, value) :: rest => do
      if filterFields.contains name && given.contains name then throw (.duplicate name)
      readFields (← storeField filter name value) (name :: given) rest

/-- Reads the filter of a query. Without a query nothing is asked for. -/
def readFilter (query : Option Octets) : Except QueryError Filter :=
  readFields {} [] (formFields (query.getD []))

end PersonRegistry.Web
