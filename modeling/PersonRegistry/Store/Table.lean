import PersonRegistry.Order.Stable
import PersonRegistry.Store.Row

/-! The table of persons, and the calls it answers. -/

namespace PersonRegistry.Store

open Time (Instant)

/-- The rows in the order in which they were written first. -/
structure Table where
  rows : List Row := []
  deriving Repr

namespace Table

instance : Inhabited Table := ⟨{}⟩

/-- Stores a person under a new identifier, whatever identifier it came with. -/
def create (table : Table) (id : Uuid) (now : Instant) (p : Person) :
    Except Error (Person × Table) :=
  if table.rows.any (·.personId = id.text) then .error .duplicateId
  else .ok ({ p with id := some id }, ⟨table.rows ++ [.ofPerson id now p]⟩)

def get (table : Table) (id : Uuid) : Except Error (Option Person) :=
  match table.rows.find? (Row.isLiveFor id) with
  | none => .ok none
  | some row => row.person.map some

def select (filter : Filter) : List Row → Except Error (List Row)
  | [] => .ok []
  | row :: rest => do
      let fulfilled ← row.fulfils filter
      let more ← select filter rest
      return if fulfilled then row :: more else more

/-- The rows in the order of a listing: oldest first. -/
def ordered (table : Table) : List Row :=
  Order.sort (fun a b => a.createdAt ≤ b.createdAt) table.rows

/-- The greatest size and start of a page that the table takes: they are signed numbers of 64 bits. -/
def pageBound : Nat := Text.IntegerRange.signed64.above

/-- A page of the live persons that fulfil a filter; a size or start beyond the bound counts as the
bound. An empty page needs no row to be looked at.
-/
def list (table : Table) (filter : Filter) : Except Error (List Person) :=
  if filter.pageSize = 0 then .ok []
  else do
    let rows ← select filter table.ordered
    let rest := rows.drop (min filter.pageStart pageBound)
    (rest.take (min filter.pageSize pageBound)).mapM Row.person

/-- Writes every field of a live person. Gives nothing if there is no such live person. -/
def update (table : Table) (now : Instant) (p : Person) : Option Person × Table :=
  match p.id with
  | none => (none, table)
  | some id =>
      if table.rows.any (Row.isLiveFor id) then
        (some p,
          ⟨table.rows.map fun row => if row.isLiveFor id then row.overwritten now p else row⟩)
      else (none, table)

/-- Deletes a live person. Gives whether there was one. -/
def delete (table : Table) (now : Instant) (id : Uuid) : Bool × Table :=
  (table.rows.any (Row.isLiveFor id),
    ⟨table.rows.map fun row => if row.isLiveFor id then row.deleted now else row⟩)

end Table
end PersonRegistry.Store
