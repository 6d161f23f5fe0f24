import PersonRegistry.Queue.Pipeline
import PersonRegistry.Settings.Basic

/-! A worker: it creates persons from all messages of an input that is already complete. -/

namespace PersonRegistry.Queue

open Service (Backend)
open Text (Octets)

/-- Why a worker does not come to the end of its input. -/
inductive WorkerError
  | noInput
  | consume (e : ConsumeError)
  deriving DecidableEq, Repr

def WorkerError.message : WorkerError → String
  | .noInput => "failed to open the input"
  | .consume e => "queue input failed: " ++ e.message

def LineSource.complete (now : Nat) (input : Octets) : LineSource :=
  { waiting := input, closes := some now }

/-- Processes all messages of an input, unless it cannot be opened. -/
def work (settings : Settings) (input : Option Octets) (backend : Backend) :
    Except WorkerError Tally × Backend :=
  match input with
  | none => (.error .noInput, backend)
  | some octets =>
      let pipeline : Pipeline :=
        { source := .complete backend.time octets, backend, pollSpan := settings.queue.pollSpan }
      let (result, pipeline) := pipeline.run none
      (result.mapError .consume, pipeline.backend)

end PersonRegistry.Queue
