import PersonRegistry.Service.Backend
import PersonRegistry.Web.Api

/-! What surrounds every request: an identifier that goes back with the response, and a limit on the time
it may take.
-/

namespace PersonRegistry.Web

open Service (Backend)
open Text (Octets)
open Time (Span)

/-- The header that carries the identifier of a request. -/
def requestIdName : String := "x-request-id"

/-- The identifier of a request: the first one it came with, or a fresh one. -/
def requestId (fresh : Uuid) (request : Request) : Octets :=
  (Header.first? requestIdName request.headers).getD (Text.Utf8.ofString fresh.text)

/-- The response to a request that took too long. -/
def timedOut : Response := { status := 408 }

/-- The response with the identifier of its request, unless it has one of its own. -/
def Response.identified (response : Response) (id : Octets) : Response :=
  if (Header.first? requestIdName response.headers).isSome then response
  else { response with headers := response.headers ++ [⟨requestIdName, id⟩] }

/-- Responds to a request within a limit of time. -/
def respondWithin (limit span : Span) (fresh : Uuid) (request : Request) (backend : Backend) :
    Response × Backend :=
  let (response, backend) := backend.runWithin limit (respond span request)
  ((response.getD timedOut).identified (requestId fresh request), backend)

end PersonRegistry.Web
