import PersonRegistry.Service.Operations
import PersonRegistry.Web.ListQuery
import PersonRegistry.Web.MediaType
import PersonRegistry.Web.Message

/-! The operations on persons over the web: which request asks for which, and what is answered. -/

namespace PersonRegistry.Web

open Inference (LookupError)
open Json (Value)
open Service (Program)
open Text (Octets)
open Time (Span)

inductive Resource
  | persons
  /-- A single person, by what stands in the place of its identifier. -/
  | person (segment : Octets)
  deriving DecidableEq, Repr

namespace Resource

def personsPath : Octets := Text.Utf8.ofString "/person"

def ofPath? (path : Octets) : Option Resource :=
  match personsPath.isPrefixOf? path with
  | some [] => some .persons
  | some (0x2f :: segment) =>
      if segment = [] || segment.contains 0x2f then none else some (.person segment)
  | _ => none

/-- The methods a resource answers, in the way a refusal lists them. -/
def allowed : Resource → String
  | .persons => "GET,HEAD,POST"
  | .person _ => "GET,HEAD,PATCH,DELETE"

end Resource

def traitNames (traits : List Inference.Trait) : Value := .list (traits.map fun t => .text t.text)

/-- The response to a lookup that failed. Where the refusal told a quota, it says when to try again. -/
def lookupResponse (e : LookupError) : Response :=
  if e.isTimeout then
    .ofMembers 504 [("error", .text e.message), ("missing", traitNames e.missing)]
  else
    let response :=
      Response.ofMembers 502
        [("error", .text e.message), ("api", .ofText? (e.trait?.map (·.service))),
          ("missing", traitNames e.missing),
          ("rate_limit", (e.quota?.map (·.value)).getD .null)]
    match e.quota? with
    | none => response
    | some quota =>
        { response with
          headers := response.headers
            ++ [.ofText "retry-after" (String.ofList (Text.decimalInteger quota.retryAfter))] }

/-- The response to a call of the service that failed. -/
def errorResponse : Service.Error → Response
  | .invalid faults =>
      .ofMembers 422
        [("error", .text "validation failed"),
          ("fields", .ofMembers (faults.map fun f => (f.1.text, .text f.2.message)))]
  | .notFound id => .ofMembers 404 [("error", .text ("not found: person " ++ id.text))]
  | .lookup e => lookupResponse e
  | e => .ofMembers 500 [("error", .text e.message)]

/-- Answers with the result of a call of the service. -/
def answering (respond : α → Response) (program : Program (Except Service.Error α)) :
    Program Response :=
  program.bind fun
    | .ok a => .done (respond a)
    | .error e => .done (errorResponse e)

def personResponse (status : Nat) (p : Person) : Response := .ofJson status p.print

def pathId (segment : Octets) : Except Response Uuid :=
  match Text.Utf8.decode (percentDecode segment) with
  | .error _ => .error (.badRequest "Invalid URL: Invalid UTF-8 in `id`")
  | .ok text =>
      match Uuid.ofText text with
      | .ok id => .ok id
      | .error flaw =>
          .error (.badRequest
            s!"Invalid URL: Cannot parse `id` with value `{text}`: UUID parsing failed: {flaw.message}")

/-- The greatest size of a body: two mebibytes. -/
def bodyLimit : Nat := 2 * 1024 * 1024

/-- Reads the body of a request, which must say that it is JSON and keep to the limit. -/
def readBody (decode : Octets → Except Json.DecodeError α) (request : Request) :
    Except Response α :=
  if !((Header.firstText? "content-type" request.headers).any MediaType.isJson) then
    .error (.badRequest "Expected request with `Content-Type: application/json`")
  else if bodyLimit < request.body.length then
    .error (.badRequest "Failed to buffer the request body: length limit exceeded")
  else
    match decode request.body with
    | .ok a => .ok a
    | .error e =>
        .error (.badRequest
          ((if e.cause.isMismatch then "Failed to deserialize the JSON body into the target type: "
            else "Failed to parse the request body as JSON: ")
            ++ e.messageWithPath))

/-- Goes on with what was read from a request, or answers at once. -/
def reading (read : Except Response α) (next : α → Program Response) : Program Response :=
  match read with
  | .ok a => next a
  | .error response => .done response

def respondList (request : Request) : Program Response :=
  match readFilter request.target.query with
  | .error e => .done (.badRequest ("Failed to deserialize query string: " ++ e.message))
  | .ok filter =>
      answering (fun found => .ofJson 200 (Json.printElements (found.map Person.print)))
        (Service.list filter)

def respondCreate (request : Request) : Program Response :=
  reading (readBody Draft.decode request) fun draft =>
    answering (personResponse 201) (Service.create draft)

def respondGet (span : Span) (segment : Octets) : Program Response :=
  reading (pathId segment) fun id => answering (personResponse 200) (Service.get span id)

def respondUpdate (segment : Octets) (request : Request) : Program Response :=
  reading (pathId segment) fun id =>
    reading (readBody Patch.decode request) fun patch =>
      answering (personResponse 200) (Service.update id patch)

def respondDelete (segment : Octets) : Program Response :=
  reading (pathId segment) fun id => answering (fun _ => { status := 204 }) (Service.delete id)

def headOnly (program : Program Response) : Program Response :=
  program.bind fun response => .done response.withoutBody

/-- The response to a method that a resource does not answer. -/
def methodNotAllowed (resource : Resource) : Response :=
  { status := 405, headers := [.ofText "allow" resource.allowed] }

/-- Responds to a request. `span` is how long persons stay in the cache. -/
def respond (span : Span) (request : Request) : Program Response :=
  match Resource.ofPath? request.target.path with
  | none => .done { status := 404 }
  | some .persons =>
      match request.method with
      | "GET" => respondList request
      | "HEAD" => headOnly (respondList request)
      | "POST" => respondCreate request
      | _ => .done (methodNotAllowed .persons)
  | some (.person segment) =>
      match request.method with
      | "GET" => respondGet span segment
      | "HEAD" => headOnly (respondGet span segment)
      | "PATCH" => respondUpdate segment request
      | "DELETE" => respondDelete segment
      | _ => .done (methodNotAllowed (.person segment))

end PersonRegistry.Web
