import PersonRegistry.Queue.LineSink
import PersonRegistry.Text.Blank
import PersonRegistry.Time.Span

/-! A queue that messages are read from, one on each line. Octets arrive over time and in pieces; what
arrived and was not yet taken waits, so that giving up never loses anything.
-/

namespace PersonRegistry.Queue

open Text (Octets)
open Time (Span)

structure Arrival where
  time : Nat
  octets : Octets
  deriving DecidableEq, Repr

structure LineSource where
  /-- What has arrived and was not yet taken. -/
  waiting : Octets := []
  /-- What has yet to arrive, in the order of the times. -/
  upcoming : List Arrival := []
  /-- When the queue is closed for new octets, if it ever is. All octets arrive before. -/
  closes : Option Nat := none
  deriving Repr

inductive ConsumeError
  | timeout (span : Span)
  | closed
  | invalid (flaw : Text.Utf8.Flaw)
  deriving DecidableEq, Repr

def ConsumeError.message : ConsumeError → String
  | .timeout span => s!"no message within {Span.text span}"
  | .closed => "consumer closed"
  | .invalid flaw => "consumer error: " ++ flaw.message

namespace LineSource

instance : Inhabited LineSource := ⟨{}⟩

/-- A line without its end: the newline, and one carriage return before it. -/
def withoutEnd (line : Octets) : Octets :=
  if line.getLast? = some newline then
    let body := line.dropLast
    if body.getLast? = some 0x0d then body.dropLast else body
  else line

/-- The first line with its end, and what follows it. -/
def splitLine? (octets : Octets) : Option (Octets × Octets) :=
  let body := octets.takeWhile (· ≠ newline)
  match octets.drop body.length with
  | [] => none
  | b :: rest => some (body ++ [b], rest)

inductive NextLine
  | line (octets : Octets)
  | timeout
  | closed
  deriving DecidableEq, Repr

/-- Waits for the next line up to a time. Gives what came of it, the source afterwards, and the time at
which that was known. The last line needs no end once the queue is closed.
-/
def nextLineFrom (limit : Nat) (closes : Option Nat) :
    (now : Nat) → (waiting : Octets) → List Arrival → NextLine × LineSource × Nat
  | now, waiting, upcoming =>
      match splitLine? waiting with
      | some (line, rest) => (.line line, ⟨rest, upcoming, closes⟩, now)
      | none =>
          match upcoming with
          | arrival :: later =>
              if arrival.time ≤ limit then
                nextLineFrom limit closes (max now arrival.time) (waiting ++ arrival.octets) later
              else (.timeout, ⟨waiting, upcoming, closes⟩, limit)
          | [] =>
              match closes with
              | some time =>
                  if time ≤ limit then
                    (if waiting = [] then .closed else .line waiting, ⟨[], [], closes⟩, max now time)
                  else (.timeout, ⟨waiting, [], closes⟩, limit)
              | none => (.timeout, ⟨waiting, [], closes⟩, limit)

/-- Waits for the next line up to a time. -/
def nextLine (source : LineSource) (now limit : Nat) : NextLine × LineSource × Nat :=
  nextLineFrom limit source.closes now source.waiting source.upcoming

def isBlankLine (text : String) : Bool := text.toList.all Text.isBlank

/-- What a line brings: a message, or an error if it is no text. A blank line brings nothing. -/
def readLine? (line : Octets) : Option (Except ConsumeError Octets) :=
  match Text.Utf8.decode line with
  | .error flaw => some (.error (.invalid flaw))
  | .ok text => if isBlankLine text then none else some (.ok (withoutEnd line))

/-- Takes the next message, unless the call is given up: `last` is the last time before it is, if it ever
is. Each blank line starts the span anew. `rounds` bounds how many lines there can be.
-/
def consumeWith (span : Span) (last : Option Nat) :
    (rounds : Nat) → LineSource → (now : Nat) → Option (Except ConsumeError Octets) × LineSource × Nat
  | 0, source, now => (none, source, now)
  | rounds + 1, source, now =>
      let limit := now + span
      match source.nextLine now (last.elim limit (min limit)) with
      | (.timeout, source, now) =>
          (if now = limit then some (.error (.timeout span)) else none, source, now)
      | (.closed, source, now) => (some (.error .closed), source, now)
      | (.line line, source, now) =>
          match readLine? line with
          | some result => (some result, source, now)
          | none => consumeWith span last rounds source now

/-- The octets that are still to be taken, arrived or not. -/
def remaining (source : LineSource) : Octets :=
  source.waiting ++ source.upcoming.flatMap (·.octets)

/-- How many octets are still to be taken, arrived or not. -/
def size (source : LineSource) : Nat := source.remaining.length

/-- Takes the next message, unless the call is given up after a time. Each line has an octet at least. A
call that is given up has skipped the blank lines it met; of the line it waits for nothing is lost.
-/
def consumeUntil (source : LineSource) (last : Option Nat) (now : Nat) (span : Span) :
    Option (Except ConsumeError Octets) × LineSource × Nat :=
  consumeWith span last (source.size + 1) source now

/-- Takes the next message, waiting for a span at most for each line. -/
def consume (source : LineSource) (now : Nat) (span : Span) :
    Except ConsumeError Octets × LineSource × Nat :=
  let (result, source, now) := source.consumeUntil none now span
  (result.getD (.error (.timeout span)), source, now)

/-- The source with octets that arrive at a time, after all others. -/
def arriving (source : LineSource) (time : Nat) (octets : Octets) : LineSource :=
  { source with upcoming := source.upcoming ++ [⟨time, octets⟩] }

def closing (source : LineSource) (time : Nat) : LineSource := { source with closes := some time }

end LineSource
end PersonRegistry.Queue
