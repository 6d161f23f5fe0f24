import PersonRegistry.Json.Printer
import PersonRegistry.Person.Coding
import PersonRegistry.Person.Validation

/-! Reports about messages that were rejected: the message, and what is wrong with it. -/

namespace PersonRegistry.Queue

open Json (Value)
open Text (Octets)

inductive Rejection
  | malformed (error : Json.DecodeError)
  | invalid (faults : Faults)
  deriving DecidableEq, Repr

def Rejection.message : Rejection → String
  | .malformed error => "malformed message: " ++ error.message
  | .invalid faults => faults.message

structure Report where
  /-- The message, as a value if it is JSON, and otherwise as a text. -/
  message : Value
  error : String
  deriving Repr

namespace Report

/-- A message as a value. What is no JSON becomes a text, with replacement characters where it is no
UTF-8.
-/
def valueOf (message : Octets) : Value :=
  match Json.decode Json.value message with
  | .ok value => value
  | .error _ => .text (String.ofList (Text.Utf8.lossy message))

def of (message : Octets) (rejection : Rejection) : Report :=
  ⟨valueOf message, rejection.message⟩

def print (report : Report) : List Char :=
  Json.printMembers [("meta", report.message.print), ("error", Json.printText report.error)]

def encode (report : Report) : Octets := Text.Utf8.encode report.print

end Report
end PersonRegistry.Queue
