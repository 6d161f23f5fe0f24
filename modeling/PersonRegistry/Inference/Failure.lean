import PersonRegistry.Inference.RateLimit
import PersonRegistry.Inference.Trait

/-! Why a service gave nothing usable for a name. -/

namespace PersonRegistry.Inference

inductive Cause
  /-- There is no name to look up. -/
  | emptyName
  | unreachable
  | status (code : Nat) (message : String) (quota : Option RateLimit)
  | malformed (error : Json.DecodeError)
  /-- The service knows nothing about the name. -/
  | unknownName (name : String)
  deriving DecidableEq, Repr

/-- A failed lookup: which trait was looked up, and why it failed. -/
structure Failure where
  trait : Trait
  cause : Cause
  deriving DecidableEq, Repr

namespace Failure

def message (failure : Failure) : String :=
  failure.trait.service ++ ": " ++
    match failure.cause with
    | .emptyName => "the name is empty"
    | .unreachable => "request failed"
    | .status code message _ => s!"upstream answered {code}: {message}"
    | .malformed error => s!"malformed response: {error.message}"
    | .unknownName name => s!"no {failure.trait.text} known for {Text.quoted name}"

def quota? (failure : Failure) : Option RateLimit :=
  match failure.cause with
  | .status _ _ quota => quota
  | _ => none

end Failure
end PersonRegistry.Inference
