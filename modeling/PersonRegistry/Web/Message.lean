import PersonRegistry.Json.Printer
import PersonRegistry.Web.Header
import PersonRegistry.Web.Token
import PersonRegistry.Web.Target

/-! Requests, and the responses they get. -/

namespace PersonRegistry.Web

open Json (Value)
open Text (Octets)

structure Request where
  method : String
  target : Target
  headers : List Header := []
  body : Octets := []
  deriving Repr

namespace Request

def isName (s : String) : Bool := !s.toList.isEmpty && s.toList.all isTokenChar

/-- An octet that may stand in the value of a header. -/
def isValueOctet (b : UInt8) : Bool := (0x20 ≤ b && b ≠ 0x7f) || b = 0x09

/-- Puts a request together, if its parts are in order. -/
def build? (method target : String) (headers : List Header) (body : Octets) : Option Request := do
  let target ← Target.ofText target
  if isName method && headers.all (fun h => isName h.name && h.value.all isValueOctet) then
    some { method, target, headers, body }
  else none

end Request

structure Response where
  status : Nat
  headers : List Header := []
  body : Octets := []
  deriving DecidableEq, Repr

namespace Response

def ofJson (status : Nat) (body : List Char) : Response where
  status
  headers := [.ofText "content-type" "application/json"]
  body := Text.Utf8.encode body

/-- A response whose body is an object of the given members. -/
def ofMembers (status : Nat) (members : List (String × Value)) : Response :=
  ofJson status (Value.ofMembers members).print

def withoutBody (response : Response) : Response := { response with body := [] }

def badRequest (reason : String) : Response := ofMembers 400 [("error", .text reason)]

end Response
end PersonRegistry.Web
