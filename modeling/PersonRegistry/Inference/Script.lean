import PersonRegistry.Inference.Lookup
import PersonRegistry.Inference.Payload

/-! Services that answer from a script instead of over a network. -/

namespace PersonRegistry.Inference

open Json (Value)
open Text (Octets)
open Time (Span)

inductive ScriptedAnswer
  | payload (value : Value)
  | status (code : Nat) (message : String) (quota : Option RateLimit)
  /-- An answer of the service that is still to be brought into the common form. -/
  | answer (octets : Octets)
  | raw (octets : Octets)
  deriving Repr

/-- The outcome of a scripted answer. No service is asked about an empty name. -/
def ScriptedAnswer.outcome (t : Trait) (name : String) (answer : ScriptedAnswer) :
    Except Failure Octets :=
  if name = "" then .error ⟨t, .emptyName⟩
  else
    match answer with
    | .payload value => .ok (Text.Utf8.encode value.print)
    | .status code message quota => .error ⟨t, .status code message quota⟩
    | .answer octets => normalise t name octets
    | .raw octets => .ok octets

structure ScriptedReply where
  answer : ScriptedAnswer
  delay : Span := 0
  deriving Repr

/-- A service that gives some names an answer of their own. -/
structure Script where
  reply : ScriptedReply
  byName : List (String × ScriptedReply) := []
  deriving Repr

namespace Script

/-- The answer of its own that a name has. -/
def special? (script : Script) (name : String) : Option ScriptedReply :=
  (script.byName.find? (·.1 == name)).map (·.2)

/-- What is replied about a name. An empty name is refused at once. -/
def replyTo (script : Script) (t : Trait) (name : String) : Reply :=
  let chosen := (script.special? name).getD script.reply
  { delay := if name = "" then 0 else chosen.delay, outcome := chosen.answer.outcome t name }

/-- The calls for a name count for the common reply, unless the name has one of its own or is empty. -/
def counts (script : Script) (name : String) : Bool :=
  name ≠ "" && (script.special? name).isNone

/-- The common reply is given as it stands, and its calls are counted. -/
def isCounted (script : Script) : Bool :=
  match script.reply.answer with
  | .payload _ | .status .. => true
  | _ => false

end Script
end PersonRegistry.Inference
