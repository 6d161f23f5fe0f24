import PersonRegistry.Cache
import PersonRegistry.Queue.LineSink
import PersonRegistry.Service.Program
import PersonRegistry.Store.Table

/-! The surroundings of the service: the table of persons, the cache, the services that infer traits, and
the queues for events and reports. Any of them may be down for some of its calls.
-/

namespace PersonRegistry.Service

open Inference (Reply Trait)
open Queue (LineSink)
open Store (Table)
open Time (Instant Span)

/-- A part of the surroundings that does not work, or interferes. -/
inductive Outage
  | storeCreate
  | storeGet
  | storeList
  | storeUpdate
  | storeDelete
  /-- A person is deleted by someone else just before it is updated. -/
  | storeVanish
  | cacheGet
  | cacheSet
  | cacheDelete
  | events
  | reports
  deriving DecidableEq, Repr

namespace Outage

def all : List Outage :=
  [.storeCreate, .storeGet, .storeList, .storeUpdate, .storeDelete, .storeVanish, .cacheGet, .cacheSet,
    .cacheDelete, .events, .reports]

/-- The name of a part, as errors give it. -/
def text : Outage → String
  | .storeCreate => "store.create"
  | .storeGet => "store.get"
  | .storeList => "store.list"
  | .storeUpdate => "store.update"
  | .storeDelete => "store.delete"
  | .storeVanish => "store.vanish"
  | .cacheGet => "cache.get"
  | .cacheSet => "cache.set"
  | .cacheDelete => "cache.delete"
  | .events => "events"
  | .reports => "reports"

def ofText? (name : String) : Option Outage := all.find? (·.text = name)

end Outage

structure Backend where
  table : Table := {}
  cache : Cache := {}
  events : LineSink := {}
  /-- The queue for reports, unless they are thrown away. -/
  reports : Option LineSink := some {}
  outages : List Outage := []
  /-- What the services reply about a name. -/
  replies : String → Trait → Reply
  /-- How long a lookup of all traits may take. -/
  deadline : Span := 2000
  /-- The time, in milliseconds. Only lookups and waiting take any. -/
  time : Nat := 0
  /-- The time by which the cache lets values expire. -/
  cacheTime : Nat := 0
  /-- The identifiers that new persons get, in order. -/
  ids : Nat → Uuid
  issued : Nat := 0
  /-- How many calls of the store were made. -/
  storeCalls : Nat := 0

namespace Backend

def isDown (b : Backend) (part : Outage) : Bool := b.outages.contains part

def now (b : Backend) : Instant := .ofMilliseconds b.time

/-- The surroundings with one more call of the store counted. -/
def counted (b : Backend) : Backend := { b with storeCalls := b.storeCalls + 1 }

/-- Makes a call of the store, unless that call is down. -/
def storeCall (part : Outage) (act : Backend → Except Store.Error α × Backend) (b : Backend) :
    Except Store.Error α × Backend :=
  let b := b.counted
  if b.isDown part then (.error (.down part.text), b) else act b

/-- Makes a call of the cache, unless that call is down. -/
def cacheCall (part : Outage) (act : Backend → α × Backend) (b : Backend) :
    Except CacheError α × Backend :=
  if b.isDown part then (.error ⟨part.text⟩, b)
  else
    let (answer, b) := act b
    (.ok answer, b)

/-- Looks up all traits of a name, which takes its time. -/
def lookUp (b : Backend) (name : String) :
    Except Inference.LookupError Inference.Enrichment × Backend :=
  let found := Inference.lookUp b.deadline (b.replies name) name
  (found.result, { b with time := b.time + found.elapsed })

def create (p : Person) (b : Backend) : Except Store.Error Person × Backend :=
  match b.table.create (b.ids b.issued) b.now p with
  | .error e => (.error e, b)
  | .ok (stored, table) => (.ok stored, { b with table, issued := b.issued + 1 })

def update (p : Person) (b : Backend) : Except Store.Error (Option Person) × Backend :=
  let table :=
    match p.id with
    | some id => if b.isDown .storeVanish then (b.table.delete b.now id).2 else b.table
    | none => b.table
  let (updated, table) := table.update b.now p
  (.ok updated, { b with table })

def delete (id : Uuid) (b : Backend) : Except Store.Error Bool × Backend :=
  let (deleted, table) := b.table.delete b.now id
  (.ok deleted, { b with table })

def publish (message : Text.Octets) (b : Backend) : Except DeliveryError Unit × Backend :=
  if b.isDown .events then (.error ⟨Outage.events.text⟩, b)
  else (.ok (), { b with events := b.events.produce message })

/-- Sends a report. Reports that are thrown away always arrive. -/
def report (message : Text.Octets) (b : Backend) : Except DeliveryError Unit × Backend :=
  match b.reports with
  | none => (.ok (), b)
  | some reports =>
      if b.isDown .reports then (.error ⟨Outage.reports.text⟩, b)
      else (.ok (), { b with reports := some (reports.produce message) })

def perform : (c : Call) → Backend → c.Answer × Backend
  | .lookUp name, b => b.lookUp name
  | .create p, b => b.storeCall .storeCreate (create p)
  | .get id, b => b.storeCall .storeGet fun b => (b.table.get id, b)
  | .list filter, b => b.storeCall .storeList fun b => (b.table.list filter, b)
  | .update p, b => b.storeCall .storeUpdate (update p)
  | .delete id, b => b.storeCall .storeDelete (delete id)
  | .cacheGet key, b => b.cacheCall .cacheGet fun b => (b.cache.get b.cacheTime key, b)
  | .cacheSet key value span, b =>
      b.cacheCall .cacheSet fun b =>
        ((), { b with cache := b.cache.set b.cacheTime key value span })
  | .cacheDelete key, b =>
      b.cacheCall .cacheDelete fun b => ((), { b with cache := b.cache.delete key })
  | .publish message, b => b.publish message
  | .report message, b => b.report message

def run (b : Backend) (program : Program α) : α × Backend := program.run perform b

/-- Runs a program for a span at most; a program that makes a call beyond it is given up at its end. -/
def runWithin (b : Backend) (span : Span) (program : Program α) : Option α × Backend :=
  let limit := b.time + span
  match program.runWhile perform (·.time ≤ limit) b with
  | (some a, b) => (some a, b)
  | (none, b) => (none, { b with time := limit })

end Backend
end PersonRegistry.Service
