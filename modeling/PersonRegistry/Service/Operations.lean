import PersonRegistry.Person.Coding
import PersonRegistry.Service.Program

/-! The operations on persons. A person is stored only after every trait was looked up and the whole
record was found in order. Single persons are read through the cache, which every change clears.
-/

namespace PersonRegistry.Service

open Json (Value)
open Text (Octets)
open Time (Span)

/-- How long a person stays in the cache unless configured otherwise: five minutes. -/
def defaultCacheSpan : Span := 5 * 60 * 1000

def cacheKey (id : Uuid) : String := id.text

def createdEvent (p : Person) : Octets :=
  Text.Utf8.encode
    (Value.ofMembers [("event", .text "person.created"), ("person", p.value)]).print

/-- Stores a checked person and tells of it. Whether the event arrives makes no difference. -/
def store (p : Person) : Program (Except Error Person) :=
  .ask (.create p) fun
    | .error e => .done (.error (.store e))
    | .ok stored => .ask (.publish (createdEvent stored)) fun _ => .done (.ok stored)

/-- Creates a person from the given name parts. Nothing is looked up for faulty ones, and nothing is
stored that is not in order.
-/
def create (draft : Draft) : Program (Except Error Person) :=
  if draft.faults ≠ [] then .done (.error (.invalid draft.faults))
  else
    let candidate := draft.candidate
    .ask (.lookUp candidate.name) fun
      | .error e => .done (.error (.lookup e))
      | .ok found =>
          let p := found.apply candidate
          if p.faults ≠ [] then .done (.error (.invalid p.faults)) else store p

/-- Reads a person from the store and caches it. A cache that does not take it is no failure. -/
def getStored (span : Span) (id : Uuid) : Program (Except Error Person) :=
  .ask (.get id) fun
    | .error e => .done (.error (.store e))
    | .ok none => .done (.error (.notFound id))
    | .ok (some p) => .ask (.cacheSet (cacheKey id) p.encode span) fun _ => .done (.ok p)

/-- Gives a person, from the cache if it holds one that can be read. -/
def get (span : Span) (id : Uuid) : Program (Except Error Person) :=
  .ask (.cacheGet (cacheKey id)) fun
    | .ok (some octets) =>
        match Person.decode octets with
        | .ok p => .done (.ok p)
        | .error _ => getStored span id
    | _ => getStored span id

def list (filter : Filter) : Program (Except Error (List Person)) :=
  if filter.faults ≠ [] then .done (.error (.invalid filter.faults))
  else
    .ask (.list filter) fun
      | .error e => .done (.error (.store e))
      | .ok found => .done (.ok found)

/-- Clears a person from the cache, then gives a result. -/
def clearing (id : Uuid) (result : α) : Program (Except Error α) :=
  .ask (.cacheDelete (cacheKey id)) fun
    | .error e => .done (.error (.cache e))
    | .ok _ => .done (.ok result)

/-- Writes a changed person back, then clears it from the cache. -/
def writeBack (id : Uuid) (p : Person) : Program (Except Error Person) :=
  .ask (.update p) fun
    | .error e => .done (.error (.store e))
    | .ok none => .done (.error (.notFound id))
    | .ok (some updated) => clearing id updated

/-- Changes a person: reads it, patches it, checks it and writes all of it back. -/
def update (id : Uuid) (patch : Patch) : Program (Except Error Person) :=
  .ask (.get id) fun
    | .error e => .done (.error (.store e))
    | .ok none => .done (.error (.notFound id))
    | .ok (some held) =>
        let p := patch.apply held
        if p.faults ≠ [] then .done (.error (.invalid p.faults)) else writeBack id p

def delete (id : Uuid) : Program (Except Error Unit) :=
  .ask (.delete id) fun
    | .error e => .done (.error (.store e))
    | .ok false => .done (.error (.notFound id))
    | .ok true => clearing id ()

end PersonRegistry.Service
