import PersonRegistry.Proofs.Store.Patterns
import PersonRegistry.Proofs.Time.Timestamps
import PersonRegistry.Store.Table

/-! A ledger of persons: what the table is to its callers. Its records stand in the order of their creation,
each live or deleted, with neither search keys nor times.
-/

namespace PersonRegistry

-----------------------------------------------------------------------------------------
-- What a filter asks for
-----------------------------------------------------------------------------------------

namespace Filter

/-- The starts of name parts that are asked for, each with the part that a person has, in the order of
their trial.
-/
def asked (filter : Filter) (p : Person) : List (String × Option String) :=
  (filter.name.map (·, some p.name)).toList
    ++ (filter.surname.map (·, some p.surname)).toList
    ++ (filter.patronymic.map (·, p.patronymic)).toList

/-- The starts of name parts that are asked for. -/
def starts (filter : Filter) : List String :=
  filter.name.toList ++ filter.surname.toList ++ filter.patronymic.toList

/-- A person is as a filter asks for: the name parts start so, and the other fields are the same. A part
that is missing starts in no way.
-/
def accepts (starts : String → String → Bool) (filter : Filter) (p : Person) : Bool :=
  (filter.asked p).all (fun asked => asked.2.any (starts asked.1))
    && filter.age.all (p.age = some ·)
    && filter.gender.all (p.gender = some ·)
    && filter.nationality.all (p.nationality = some ·)

end Filter

namespace Store

open Time (Instant)

-----------------------------------------------------------------------------------------
-- Calls and replies
-----------------------------------------------------------------------------------------

inductive Action
  | create (p : Person)
  | get (id : Uuid)
  | list (filter : Filter)
  | update (p : Person)
  | delete (id : Uuid)
  /-- Goes on with the same table over another connection. -/
  | reopen

/-- A call, with what it draws from outside: the time, and the identifier of a person that is created. -/
structure Turn where
  action : Action
  now : Instant
  fresh : Uuid

inductive Reply
  | person (found : Option Person)
  | persons (found : List Person)
  | flag (done : Bool)
  | opened
  deriving DecidableEq

namespace Table

/-- The table's reply to a call, and the table after it. -/
def answer (table : Table) (turn : Turn) : Except Error Reply × Table :=
  match turn.action with
  | .create p =>
      match table.create turn.fresh turn.now p with
      | .error flaw => (.error flaw, table)
      | .ok (stored, after) => (.ok (.person (some stored)), after)
  | .get id => ((table.get id).map .person, table)
  | .list filter => ((table.list filter).map .persons, table)
  | .update p => (.ok (.person (table.update turn.now p).1), (table.update turn.now p).2)
  | .delete id => (.ok (.flag (table.delete turn.now id).1), (table.delete turn.now id).2)
  | .reopen => (.ok .opened, table)

def answers : Table → List Turn → List (Except Error Reply)
  | _, [] => []
  | table, turn :: rest => (table.answer turn).1 :: (table.answer turn).2.answers rest

end Table

-----------------------------------------------------------------------------------------
-- The ledger
-----------------------------------------------------------------------------------------

structure Entry where
  id : Uuid
  person : Person
  isLive : Bool

/-- The record is the live one of an identifier. -/
def Entry.isLiveFor (id : Uuid) (entry : Entry) : Bool := entry.isLive && entry.id = id

structure Ledger where
  entries : List Entry := []

namespace Ledger

def live (ledger : Ledger) : List Person := (ledger.entries.filter (·.isLive)).map (·.person)

/-- The ledger with the live record of an identifier changed in its place. -/
def change (ledger : Ledger) (id : Uuid) (alter : Entry → Entry) : Ledger :=
  ⟨ledger.entries.map fun entry => if entry.isLiveFor id then alter entry else entry⟩

/-- A page of the live persons that are as a filter asks for. -/
def page (starts : String → String → Bool) (ledger : Ledger) (filter : Filter) : List Person :=
  ((ledger.live.filter (filter.accepts starts)).drop filter.pageStart).take filter.pageSize

/-- The ledger's reply to a call by some way of listing, and the ledger after it. -/
def answer (listing : Ledger → Filter → Except Error (List Person)) (ledger : Ledger)
    (turn : Turn)
    : Except Error Reply × Ledger :=
  match turn.action with
  | .create p =>
      let stored := { p with id := some turn.fresh }
      (.ok (.person (some stored)), ⟨ledger.entries ++ [⟨turn.fresh, stored, true⟩]⟩)
  | .get id => (.ok (.person ((ledger.entries.find? (·.isLiveFor id)).map (·.person))), ledger)
  | .list filter => ((listing ledger filter).map .persons, ledger)
  | .update p =>
      match p.id with
      | none => (.ok (.person none), ledger)
      | some id =>
          if ledger.entries.any (·.isLiveFor id) then
            (.ok (.person (some p)), ledger.change id ({ · with person := p }))
          else (.ok (.person none), ledger)
  | .delete id =>
      (.ok (.flag (ledger.entries.any (·.isLiveFor id))),
        ledger.change id ({ · with isLive := false }))
  | .reopen => (.ok .opened, ledger)

def answers (listing : Ledger → Filter → Except Error (List Person))
    : Ledger → List Turn → List (Except Error Reply)
  | _, [] => []
  | ledger, turn :: rest =>
      (ledger.answer listing turn).1 :: answers listing (ledger.answer listing turn).2 rest

/-- Lists the persons whose name parts start as asked for, and never fails. -/
def listing (ledger : Ledger) (filter : Filter) : Except Error (List Person) :=
  .ok (ledger.page startsAs filter)

/-- The trial of a person comes to a start whose pattern is too long, since the parts before it start as
asked for.
-/
def stalls : List (String × Option String) → Bool
  | [] => false
  | (start, part) :: rest =>
      isTooLong (startPattern start) || part.any (startsAsSeen start) && stalls rest

/-- Lists the persons whose name parts start as asked for as far as matching sees them, and fails if the
trial of a live person comes to a pattern that is too long.
-/
def listingSeen (ledger : Ledger) (filter : Filter) : Except Error (List Person) :=
  if filter.pageSize ≠ 0 && ledger.live.any (fun p => stalls (filter.asked p)) then
    .error .patternTooLong
  else .ok (ledger.page startsAsSeen filter)

end Ledger
end Store
end PersonRegistry
