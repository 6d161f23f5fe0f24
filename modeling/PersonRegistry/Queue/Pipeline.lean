import PersonRegistry.Queue.LineSource
import PersonRegistry.Queue.Report
import PersonRegistry.Service.Backend
import PersonRegistry.Service.Operations

/-! The pipeline takes messages from a queue and creates the persons they describe. Messages that cannot
be read, or describe no valid person, are answered with a report; other failures drop the message.
-/

namespace PersonRegistry.Queue

open Service (Backend Program)
open Text (Octets)
open Time (Span)

/-- How long a poll waits for a message unless configured otherwise. -/
def defaultPollSpan : Span := 100

inductive Outcome
  | idle
  /-- The message was rejected and a report about it sent. -/
  | reported
  | dropped
  | saved (p : Person)
  deriving DecidableEq, Repr

structure Tally where
  saved : Nat := 0
  reported : Nat := 0
  dropped : Nat := 0
  deriving DecidableEq, Repr

/-- The tally with one more outcome. A poll without a message counts for nothing. -/
def Tally.record (tally : Tally) : Outcome → Tally
  | .idle => tally
  | .reported => { tally with reported := tally.reported + 1 }
  | .dropped => { tally with dropped := tally.dropped + 1 }
  | .saved _ => { tally with saved := tally.saved + 1 }

/-- Reports a rejected message. A report that does not arrive drops the message. -/
def reject (message : Octets) (rejection : Rejection) : Program Outcome :=
  .ask (.report (Report.of message rejection).encode) fun
    | .ok _ => .done .reported
    | .error _ => .done .dropped

def handle (message : Octets) : Program Outcome :=
  match Draft.decode message with
  | .error error => reject message (.malformed error)
  | .ok draft =>
      (Service.create draft).bind fun
        | .ok p => .done (.saved p)
        | .error (.invalid faults) => reject message (.invalid faults)
        | .error _ => .done .dropped

section Loops

variable {σ : Type} (process : Octets → σ → Outcome × σ)

/-- Polls once and processes the message, if there is one. How a state is polled, and how a message is
processed in it, is given.
-/
def pollOnce (poll : σ → Except ConsumeError Octets × σ) (s : σ) : Except ConsumeError Outcome × σ :=
  match poll s with
  | (.ok message, s) =>
      let (outcome, s) := process message s
      (.ok outcome, s)
  | (.error (.timeout _), s) => (.ok .idle, s)
  | (.error error, s) => (.error error, s)

/-- Processes messages until the queue is closed, or a poll is cut short by the order to stop. A message
that is being processed then is finished. `rounds` bounds the number of polls.
-/
def pollAll (poll : σ → Option (Except ConsumeError Octets) × σ) :
    (rounds : Nat) → Tally → σ → Except ConsumeError Tally × σ
  | 0, tally, s => (.ok tally, s)
  | rounds + 1, tally, s =>
      match poll s with
      | (none, s) => (.ok tally, s)
      | (some (.ok message), s) =>
          let (outcome, s) := process message s
          pollAll poll rounds (tally.record outcome) s
      | (some (.error (.timeout _)), s) => pollAll poll rounds tally s
      | (some (.error .closed), s) => (.ok tally, s)
      | (some (.error error), s) => (.error error, s)

end Loops

/-- A queue together with the surroundings in which its messages are processed. -/
structure Pipeline where
  source : LineSource := {}
  backend : Backend
  pollSpan : Span := defaultPollSpan

namespace Pipeline

def poll (pipeline : Pipeline) : Except ConsumeError Octets × Pipeline :=
  let (polled, source, time) := pipeline.source.consume pipeline.backend.time pipeline.pollSpan
  (polled, { pipeline with source, backend := { pipeline.backend with time } })

/-- Processes a message in the surroundings of the pipeline. -/
def process (pipeline : Pipeline) (message : Octets) : Outcome × Pipeline :=
  let (outcome, backend) := pipeline.backend.run (handle message)
  (outcome, { pipeline with backend })

def step (pipeline : Pipeline) : Except ConsumeError Outcome × Pipeline :=
  pollOnce (fun message pipeline => pipeline.process message) poll pipeline

/-- The order to stop has been given by now. -/
def isStopped (stop : Option Nat) (pipeline : Pipeline) : Bool :=
  stop.any (· ≤ pipeline.backend.time)

/-- Polls the queue unless the order to stop comes first. A poll that is cut short takes no message from
the queue; what arrived meanwhile keeps waiting.
-/
def pollUntil (stop : Option Nat) (pipeline : Pipeline) :
    Option (Except ConsumeError Octets) × Pipeline :=
  if pipeline.isStopped stop then (none, pipeline)
  else
    let (polled, source, time) :=
      pipeline.source.consumeUntil (stop.map (· - 1)) pipeline.backend.time pipeline.pollSpan
    let time := if polled.isNone then stop.getD time else time
    (polled, { pipeline with source, backend := { pipeline.backend with time } })

/-- Processes messages until the queue is closed, or the order to stop is given. -/
def runWith (stop : Option Nat) (rounds : Nat) (tally : Tally) (pipeline : Pipeline) :
    Except ConsumeError Tally × Pipeline :=
  pollAll (fun message pipeline => pipeline.process message) (pollUntil stop) rounds tally pipeline

/-- The last time at which anything happens to the queue, or the order to stop comes. -/
def horizon (pipeline : Pipeline) (stop : Option Nat) : Nat :=
  let times := pipeline.source.upcoming.map (·.time)
  (times ++ pipeline.source.closes.toList ++ stop.toList).foldl max 0

/-- Processes messages until the queue is closed, or the order to stop is given. Each poll takes an
octet or lets time pass, so a queue that is ever closed, or an order that ever comes, ends the run
within these rounds.
-/
def run (stop : Option Nat) (pipeline : Pipeline) : Except ConsumeError Tally × Pipeline :=
  runWith stop (pipeline.source.size + pipeline.horizon stop + 2) {} pipeline

end Pipeline
end PersonRegistry.Queue
