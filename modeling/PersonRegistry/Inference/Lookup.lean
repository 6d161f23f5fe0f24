import PersonRegistry.Inference.Enrichment
import PersonRegistry.Inference.Failure
import PersonRegistry.Time.Span

/-! Looking up all traits of a name at once: one loop polls a task for each trait. The first failure, or the
deadline, ends the lookup and cancels the tasks that are left.
-/

namespace PersonRegistry.Inference

open Text (Octets)
open Time (Span)

/-- What a service replies, and how long it takes. -/
structure Reply where
  delay : Span
  outcome : Except Failure Octets

/-- The reply of a service that cannot be reached. -/
def Reply.unreachable (t : Trait) : Reply := ⟨0, .error ⟨t, .unreachable⟩⟩

inductive Stop
  | failed (failure : Failure)
  | timeout (deadline : Span)
  | unusable (trait : Trait) (flaw : PayloadFlaw)
  deriving DecidableEq, Repr

def Stop.message : Stop → String
  | .failed failure => failure.message
  | .timeout deadline => s!"enrichment did not finish within {Span.text deadline}"
  | .unusable trait flaw => s!"{trait.text} payload is unusable: {flaw.message trait}"

/-- A lookup that stopped, with the traits collected before. -/
structure LookupError where
  name : String
  stop : Stop
  collected : Enrichment
  deriving DecidableEq, Repr

namespace LookupError

def message (e : LookupError) : String :=
  s!"enriching {Text.quoted e.name} failed: {e.stop.message}"

def isTimeout (e : LookupError) : Bool :=
  match e.stop with
  | .timeout _ => true
  | _ => false

def missing (e : LookupError) : List Trait := e.collected.missing

def trait? (e : LookupError) : Option Trait :=
  match e.stop with
  | .failed failure => some failure.trait
  | .unusable trait _ => some trait
  | .timeout _ => none

/-- The quota that came with the refusal that ended the lookup. -/
def quota? (e : LookupError) : Option RateLimit :=
  match e.stop with
  | .failed failure => failure.quota?
  | _ => none

end LookupError

/-- A reply as the collector takes it: the trait, or why it ends the lookup. -/
def Reply.taken (t : Trait) (reply : Reply) : Except Stop Enrichment :=
  match reply.outcome with
  | .error failure => .error (.failed failure)
  | .ok payload => (traitOf t payload).mapError (.unusable t)

/-- Where a lookup of all traits stands. Each trait has a task, which asks the service of the trait when it
is polled first, and then waits for the reply.
-/
structure Race where
  time : Span := 0
  unpolled : List Trait := Trait.all
  /-- The tasks to be polled again, in the order in which they were woken. -/
  woken : List Trait := []
  /-- The tasks that wait for their reply. -/
  waiting : List Trait := []
  collected : Enrichment := {}
  /-- What ended the lookup. All tasks are cancelled then. -/
  stop : Option Stop := none
  started : List Trait := []
  completed : List Trait := []

namespace Race

/-- Ends the lookup, unless something did so before, and cancels all tasks. That wakes those that wait. -/
def cancel (race : Race) (stop : Stop) : Race :=
  { race with
    stop := race.stop <|> some stop
    woken := race.woken ++ race.waiting
    waiting := [] }

/-- Takes the reply of a task. The first failure cancels the others. -/
def take (race : Race) (t : Trait) (reply : Reply) : Race :=
  let race := { race with completed := race.completed ++ [t] }
  match reply.taken t with
  | .ok found => { race with collected := race.collected.merge found }
  | .error stop => race.cancel stop

/-- Polls a task for the first time. A cancelled task asks nobody. -/
def start (race : Race) (t : Trait) (reply : Reply) : Race :=
  if race.stop.isSome then race
  else
    let race := { race with started := race.started ++ [t] }
    if reply.delay ≤ race.time then race.take t reply
    else { race with waiting := race.waiting ++ [t] }

/-- Polls a task that was woken. It was cancelled, or its reply is there. -/
def resume (race : Race) (t : Trait) (reply : Reply) : Race :=
  if race.stop.isSome then race else race.take t reply

/-- Sleeps until the next reply arrives, or until the deadline if that comes first. A reply that arrives at
the deadline still counts.
-/
def sleep (race : Race) (deadline : Span) (replies : Trait → Reply) : Race :=
  match (race.waiting.map fun t => (replies t).delay).min? with
  | none => race
  | some next =>
      if next ≤ deadline then
        { race with
          time := next
          woken := race.waiting.filter fun t => (replies t).delay ≤ next
          waiting := race.waiting.filter fun t => next < (replies t).delay }
      else { race with time := deadline }.cancel (.timeout deadline)

/-- Polls the next task, or sleeps if there is none to poll. -/
def step (race : Race) (deadline : Span) (replies : Trait → Reply) : Race :=
  match race.unpolled, race.woken with
  | t :: rest, _ => { race with unpolled := rest }.start t (replies t)
  | [], t :: rest => { race with woken := rest }.resume t (replies t)
  | [], [] => race.sleep deadline replies

/-- A bound on the steps that are left: a task is polled first, waits, and is polled again. -/
def stepsLeft (race : Race) : Nat :=
  3 * race.unpolled.length + 2 * race.waiting.length + race.woken.length

def run (race : Race) (deadline : Span) (replies : Trait → Reply) : (steps : Nat) → Race
  | 0 => race
  | steps + 1 => (race.step deadline replies).run deadline replies steps

end Race

/-- What came of a lookup: its result, how long it took, and which services were asked and which had
replied when it ended.
-/
structure Lookup where
  result : Except LookupError Enrichment
  elapsed : Span
  started : List Trait
  completed : List Trait

def lookUp (deadline : Span) (replies : Trait → Reply) (name : String) : Lookup :=
  let start : Race := {}
  let race := start.run deadline replies start.stepsLeft
  { result :=
      match race.stop with
      | some stop => .error ⟨name, stop, race.collected⟩
      | none => .ok race.collected
    elapsed := race.time
    started := race.started
    completed := race.completed }

end PersonRegistry.Inference
