import PersonRegistry.Inference.Payload
import PersonRegistry.Web.FormText

/-! Asking a service over the web: the address asked, and what an answer amounts to. -/

namespace PersonRegistry.Inference

open Json (Layout)
open Text (Octets)
open Web (Header)

structure Answer where
  status : Nat
  headers : List Header
  body : Octets
  deriving Repr

structure Refusal where
  error : String := ""

def Refusal.layout : Layout Refusal where
  title := "Refusal"
  blank := {}
  members := [.of "error" .required Json.text fun error r => { r with error }]

def standardPhrase? : Nat → Option String
  | 100 => some "Continue"
  | 101 => some "Switching Protocols"
  | 102 => some "Processing"
  | 103 => some "Early Hints"
  | 200 => some "OK"
  | 201 => some "Created"
  | 202 => some "Accepted"
  | 203 => some "Non Authoritative Information"
  | 204 => some "No Content"
  | 205 => some "Reset Content"
  | 206 => some "Partial Content"
  | 207 => some "Multi-Status"
  | 208 => some "Already Reported"
  | 226 => some "IM Used"
  | 300 => some "Multiple Choices"
  | 301 => some "Moved Permanently"
  | 302 => some "Found"
  | 303 => some "See Other"
  | 304 => some "Not Modified"
  | 305 => some "Use Proxy"
  | 307 => some "Temporary Redirect"
  | 308 => some "Permanent Redirect"
  | 400 => some "Bad Request"
  | 401 => some "Unauthorized"
  | 402 => some "Payment Required"
  | 403 => some "Forbidden"
  | 404 => some "Not Found"
  | 405 => some "Method Not Allowed"
  | 406 => some "Not Acceptable"
  | 407 => some "Proxy Authentication Required"
  | 408 => some "Request Timeout"
  | 409 => some "Conflict"
  | 410 => some "Gone"
  | 411 => some "Length Required"
  | 412 => some "Precondition Failed"
  | 413 => some "Payload Too Large"
  | 414 => some "URI Too Long"
  | 415 => some "Unsupported Media Type"
  | 416 => some "Range Not Satisfiable"
  | 417 => some "Expectation Failed"
  | 418 => some "I'm a teapot"
  | 421 => some "Misdirected Request"
  | 422 => some "Unprocessable Entity"
  | 423 => some "Locked"
  | 424 => some "Failed Dependency"
  | 425 => some "Too Early"
  | 426 => some "Upgrade Required"
  | 428 => some "Precondition Required"
  | 429 => some "Too Many Requests"
  | 431 => some "Request Header Fields Too Large"
  | 451 => some "Unavailable For Legal Reasons"
  | 500 => some "Internal Server Error"
  | 501 => some "Not Implemented"
  | 502 => some "Bad Gateway"
  | 503 => some "Service Unavailable"
  | 504 => some "Gateway Timeout"
  | 505 => some "HTTP Version Not Supported"
  | 506 => some "Variant Also Negotiates"
  | 507 => some "Insufficient Storage"
  | 508 => some "Loop Detected"
  | 510 => some "Not Extended"
  | 511 => some "Network Authentication Required"
  | _ => none

namespace Answer

def isSuccess (answer : Answer) : Bool := 200 ≤ answer.status && answer.status < 300

/-- What a refusal says: its own words, or the standard phrase of its status. -/
def refusalMessage (answer : Answer) : String :=
  match Json.decode (Json.record Refusal.layout) answer.body with
  | .ok refusal => refusal.error
  | .error _ => (standardPhrase? answer.status).getD "request failed"

def outcome (t : Trait) (name : String) (answer : Answer) : Except Failure Octets :=
  if answer.isSuccess then normalise t name answer.body
  else
    .error
      ⟨t, .status answer.status answer.refusalMessage (RateLimit.ofHeaders? answer.headers)⟩

end Answer

/-- The address that asks about a name: the query is put behind any other, and a fragment stays
unsent.
-/
def requestAddress (endpoint name : String) : String :=
  let sent := endpoint.toList.takeWhile (· ≠ '#')
  let query := (sent.dropWhile (· ≠ '?')).drop 1
  let mark := if sent.contains '?' then (if query = [] then [] else ['&']) else ['?']
  String.ofList (sent ++ mark) ++ "name=" ++ Web.formEncode name

/-- Asks a service about a name. `connect` gives what is answered at an address, if anything is. An empty
name is not asked about.
-/
def fetch (connect : String → Option Answer) (t : Trait) (endpoint name : String) :
    Except Failure Octets :=
  if name = "" then .error ⟨t, .emptyName⟩
  else
    match connect (requestAddress endpoint name) with
    | none => .error ⟨t, .unreachable⟩
    | some answer => answer.outcome t name

end PersonRegistry.Inference
