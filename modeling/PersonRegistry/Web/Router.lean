import PersonRegistry.Web.Envelope

/-! Routers, which send a request to the endpoint for its path and method, and the layers around their
endpoints: a limit of time, the identifier of the request, and a span in the log.
-/

namespace PersonRegistry.Web

open Service (Backend Program)
open Text (Octets)
open Time (Span)

/-- What responds to requests, in surroundings that may change meanwhile. -/
abbrev Endpoint (σ : Type) := Request → σ → Response × σ

/-- An endpoint that may be given up before it has responded, because a limit of time is over. -/
abbrev Handler (σ : Type) := Span → Request → σ → Option Response × σ

/-- The headers with one more, unless they hold one of that name already. -/
def Header.adding (name : String) (value : Octets) (headers : List Header) : List Header :=
  if (first? name headers).isSome then headers else headers ++ [⟨name, value⟩]

/-- The response with a header, if there is a value for it, and the response has none of that name. -/
def Response.carrying (name : String) (value : Option Octets) (response : Response) : Response :=
  match value with
  | none => response
  | some value => { response with headers := Header.adding name value response.headers }

-----------------------------------------------------------------------------------------
-- Routers
-----------------------------------------------------------------------------------------

/-- The endpoints for one path. -/
structure Methods (ε : Type) where
  routes : List (String × ε)
  /-- For every other method. -/
  fallback : ε
  /-- The methods that have a route, in the way a refusal lists them. -/
  allow : Option String := none

/-- A request for no more than the head is sent where one for the whole would be. -/
def Methods.endpoint? (methods : Methods ε) (method : String) : Option ε :=
  match methods.routes.lookup method with
  | some endpoint => some endpoint
  | none => if method = "HEAD" then methods.routes.lookup "GET" else none

def Methods.layer (wrap : ε → δ) (methods : Methods ε) : Methods δ where
  routes := methods.routes.map fun route => (route.1, wrap route.2)
  fallback := wrap methods.fallback
  allow := methods.allow

structure Router (ε : Type) where
  paths : Octets → Option (Methods ε)
  /-- For every path that is not known. -/
  fallback : ε

namespace Router

/-- Where a request is sent, and the methods to list where that is the fallback of a path. -/
def route (router : Router ε) (request : Request) : ε × Option String :=
  match router.paths request.target.path with
  | none => (router.fallback, none)
  | some methods =>
      match methods.endpoint? request.method with
      | some endpoint => (endpoint, none)
      | none => (methods.fallback, methods.allow)

/-- Wraps a layer around all endpoints, the fallbacks included. -/
def layer (wrap : ε → δ) (router : Router ε) : Router δ where
  paths := fun path => (router.paths path).map (Methods.layer wrap)
  fallback := wrap router.fallback

end Router

/-- What a router does to a response of an endpoint and its layers. -/
def Response.finished (method : String) (allow : Option String) (response : Response) : Response :=
  let response := response.carrying "allow" (allow.map Text.Utf8.ofString)
  if method = "HEAD" then response.withoutBody else response

def Router.serve (router : Router (Endpoint σ)) : Endpoint σ := fun request s =>
  let (endpoint, allow) := router.route request
  let (response, s) := endpoint request s
  (response.finished request.method allow, s)

-----------------------------------------------------------------------------------------
-- Layers
-----------------------------------------------------------------------------------------

/-- The layers that a server is built with. -/
structure Layers (σ : Type) where
  /-- Gives up what takes longer than a span. -/
  timeout : Span → Handler σ → Endpoint σ
  /-- Copies the header of a name from the request to the response. -/
  propagate : String → Endpoint σ → Endpoint σ
  /-- Opens a span in the log. -/
  trace : Endpoint σ → Endpoint σ
  /-- Adds a header of a name to the request, with a fresh identifier. -/
  set : String → Endpoint σ → Endpoint σ

/-- The layers without a log, with identifiers as they are drawn. -/
def Layers.plain (draw : σ → Uuid × σ) : Layers σ where
  timeout limit handler request s :=
    let (response, s) := handler limit request s
    (response.getD timedOut, s)
  propagate name endpoint request s :=
    let (response, s) := endpoint request s
    (response.carrying name (Header.first? name request.headers), s)
  trace endpoint := endpoint
  set name endpoint request s :=
    match Header.first? name request.headers with
    | some _ => endpoint request s
    | none =>
        let (id, s) := draw s
        endpoint { request with headers := request.headers ++ [.ofText name id.text] } s

/-- The router with identifiers, a log and a limit of time. The layer that is added last runs first: a
request has its identifier before the span in the log is opened.
-/
def layered (layers : Layers σ) (router : Router (Handler σ)) (limit : Span) : Router (Endpoint σ) :=
  (((router.layer (layers.timeout limit)).layer (layers.propagate requestIdName)).layer layers.trace).layer
    (layers.set requestIdName)

-----------------------------------------------------------------------------------------
-- The operations on persons
-----------------------------------------------------------------------------------------

/-- Responds by running a program. -/
def handling (program : Request → Program Response) : Handler Backend := fun limit request b =>
  b.runWithin limit (program request)

/-- Responds with a status alone. -/
def refusing (status : Nat) : Handler Backend := handling fun _ => .done { status }

def Resource.handlers (span : Span) : Resource → Methods (Handler Backend)
  | .persons =>
      { routes := [("GET", handling respondList), ("POST", handling respondCreate)]
        fallback := refusing 405
        allow := some persons.allowed }
  | .person segment =>
      { routes :=
          [("GET", handling fun _ => respondGet span segment),
            ("PATCH", handling (respondUpdate segment)),
            ("DELETE", handling fun _ => respondDelete segment)]
        fallback := refusing 405
        allow := some (person segment).allowed }

/-- The router of the operations on persons. `span` is how long persons stay in the cache. -/
def apiRouter (span : Span) : Router (Handler Backend) where
  paths := fun path => (Resource.ofPath? path).map (Resource.handlers span)
  fallback := refusing 404

end PersonRegistry.Web
