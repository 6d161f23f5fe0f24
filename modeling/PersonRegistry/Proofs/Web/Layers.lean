import PersonRegistry.Proofs.Inference.Quotas
import PersonRegistry.Web.Router

/-! Layers around a router that do what they document. A response carries the identifier of its request, and
no other, whatever a handler answers, where the router has no route, and where a handler is given up.
-/

namespace PersonRegistry.Web

open Text (Octets)
open Time (Span)

-----------------------------------------------------------------------------------------
-- Headers of one name
-----------------------------------------------------------------------------------------

namespace Header

variable {name other : String} {headers : List Header}

/-- The values of all fields of a name. -/
def values (name : String) (headers : List Header) : List Octets :=
  (headers.filter (isNamed name)).map (·.value)

theorem first?_eq_head? (name : String) (headers : List Header)
    : first? name headers = (values name headers).head? := by
  rw [first?, values, List.head?_map, List.head?_filter]

theorem first?_eq_none (unset : values name headers = []) : first? name headers = none := by
  rw [first?_eq_head?, unset]
  rfl

theorem isNamed_comm (name other : String) (value more : Octets)
    : isNamed name ⟨other, value⟩ = isNamed other ⟨name, more⟩ :=
  Bool.beq_comm

theorem values_append (name : String) (headers more : List Header)
    : values name (headers ++ more) = values name headers ++ values name more := by
  simp [values]

theorem values_self (name : String) (value : Octets) : values name [⟨name, value⟩] = [value] := by
  simp [values, isNamed]

theorem values_other {value : Octets} (apart : isNamed name ⟨other, value⟩ = false)
    : values name [⟨other, value⟩] = [] := by
  simp [values, apart]

/-- A name that no field has is added once. -/
theorem values_adding (unset : values name headers = []) (value : Octets)
    : values name (adding name value headers) = [value] := by
  rw [adding, first?_eq_none unset]
  simp [values_append, values_self, unset]

/-- Adding a field of another name changes nothing about a name. -/
theorem values_adding_other {value : Octets} (apart : isNamed name ⟨other, value⟩ = false)
    : values name (adding other value headers) = values name headers := by
  rw [adding]
  split
  next => rfl
  next => rw [values_append, values_other apart, List.append_nil]

theorem first?_adding_other {value : Octets} (apart : isNamed name ⟨other, value⟩ = false)
    : first? name (adding other value headers) = first? name headers := by
  rw [first?_eq_head?, first?_eq_head?, values_adding_other apart]

/-- Fields of two names may be added in either order. -/
theorem adding_perm {value more : Octets} (apart : isNamed name ⟨other, more⟩ = false)
    (converse : isNamed other ⟨name, value⟩ = false)
    : (adding other more (adding name value headers)).Perm
        (adding name value (adding other more headers)) := by
  rw [adding, first?_adding_other converse, adding, adding, first?_adding_other apart, adding]
  split
  next => exact .rfl
  next =>
    split
    next => exact .rfl
    next =>
      rw [List.append_assoc, List.append_assoc]
      exact .append_left headers (.swap _ _ [])

theorem values_perm (name : String) {left right : List Header} (same : left.Perm right)
    : (values name left).Perm (values name right) :=
  (same.filter _).map _

end Header

variable {σ : Type}

/-- The names that responses have, apart from the one for identifiers. -/
theorem isNamed_requestIdName {other : String} (known : other ∈ ["allow", "content-type", "retry-after"])
    (value : Octets)
    : Header.isNamed requestIdName ⟨other, value⟩ = false := by
  have apart : ∀ other ∈ ["allow", "content-type", "retry-after"],
      other.toList.map Char.toLower ≠ requestIdName.toList.map Char.toLower := by
    decide
  rw [Header.isNamed_eq]
  exact decide_eq_false (apart other known)

/-- The response has no header of a name. -/
def Response.Lacks (name : String) (response : Response) : Prop :=
  Header.values name response.headers = []

-----------------------------------------------------------------------------------------
-- Layers around any router
-----------------------------------------------------------------------------------------

namespace Layers

/-- The layers as they are documented. Each calls what it wraps, in some state of the surroundings, and
leaves the request and the response as they are but for its own purpose. `draw` tells the identifier that
is fresh in a state.
-/
structure Documented (layers : Layers σ) (draw : σ → Uuid) : Prop where
  /-- The response that is there within the limit, or that the request took too long. -/
  timeout (limit : Span) (handler : Handler σ) (request : Request) (s : σ)
    : ∃ s', (layers.timeout limit handler request s).1 = (handler limit request s').1.getD timedOut
  /-- The first value of the name goes on the response, unless that has one. -/
  propagate (name : String) (endpoint : Endpoint σ) (request : Request) (s : σ)
    : ∃ s', (layers.propagate name endpoint request s).1
      = (endpoint request s').1.carrying name (Header.first? name request.headers)
  trace (endpoint : Endpoint σ) (request : Request) (s : σ)
    : ∃ s', (layers.trace endpoint request s).1 = (endpoint request s').1
  set_present {name : String} (endpoint : Endpoint σ) {request : Request} (s : σ)
    (given : Header.first? name request.headers ≠ none)
    : ∃ s', (layers.set name endpoint request s).1 = (endpoint request s').1
  set_absent {name : String} (endpoint : Endpoint σ) {request : Request} (s : σ)
    (missing : Header.first? name request.headers = none)
    : ∃ s', (layers.set name endpoint request s).1
      = (endpoint { request with headers := request.headers ++ [.ofText name (draw s).text] } s').1

theorem documented_plain (draw : σ → Uuid × σ) : (plain draw).Documented fun s => (draw s).1 where
  timeout _ _ _ s := ⟨s, rfl⟩
  propagate _ _ _ s := ⟨s, rfl⟩
  trace _ _ s := ⟨s, rfl⟩
  set_present endpoint request s given := by
    obtain ⟨value, first⟩ := Option.ne_none_iff_exists'.mp given
    exact ⟨s, by simp only [plain, first]⟩
  set_absent endpoint request s missing := ⟨(draw s).2, by simp only [plain, missing]⟩

end Layers

/-- The request with an identifier, fresh unless it came with one. -/
def Request.identified (fresh : Uuid) (request : Request) : Request :=
  { request with
    headers := Header.adding requestIdName (Text.Utf8.ofString fresh.text) request.headers }

/-- Setting an identifier, whether or not the request came with one. -/
theorem Layers.Documented.set {layers : Layers σ} {draw : σ → Uuid} (documented : layers.Documented draw)
    (endpoint : Endpoint σ) (request : Request) (s : σ)
    : ∃ s', (layers.set requestIdName endpoint request s).1
      = (endpoint (request.identified (draw s)) s').1 := by
  cases first : Header.first? requestIdName request.headers with
  | none =>
      obtain ⟨s', same⟩ := documented.set_absent endpoint s first
      refine ⟨s', same.trans ?_⟩
      simp [Request.identified, Header.adding, first, Header.ofText]
  | some value =>
      have given : Header.first? requestIdName request.headers ≠ none := by simp [first]
      obtain ⟨s', same⟩ := documented.set_present endpoint s given
      refine ⟨s', same.trans ?_⟩
      simp [Request.identified, Header.adding, first]

theorem first?_identified (fresh : Uuid) (request : Request)
    : Header.first? requestIdName (request.identified fresh).headers = some (requestId fresh request) := by
  rw [requestId]
  cases first : Header.first? requestIdName request.headers with
  | some value => simp [Request.identified, Header.adding, first]
  | none =>
      have unset : Header.values requestIdName request.headers = [] := by
        rwa [Header.first?_eq_head?, List.head?_eq_none_iff] at first
      rw [Request.identified, Header.first?_eq_head?, Header.values_adding unset]
      rfl

theorem Methods.endpoint?_layer {ε δ : Type} (wrap : ε → δ) (methods : Methods ε) (method : String)
    : (methods.layer wrap).endpoint? method = (methods.endpoint? method).map wrap := by
  have found (name : String)
      : (methods.layer wrap).routes.lookup name = (methods.routes.lookup name).map wrap := by
    rw [Methods.layer]
    simp only
    induction methods.routes with
    | nil => rfl
    | cons route routes ih =>
        rw [List.map_cons, List.lookup_cons, List.lookup_cons, ih]
        split <;> rfl
  rw [endpoint?, endpoint?, found, found]
  cases methods.routes.lookup method with
  | some endpoint => rfl
  | none => simp only [Option.map_none]; split <;> rfl

theorem Methods.endpoint?_eq_none {ε : Type} {methods : Methods ε} {method : String}
    (other : ∀ route ∈ methods.routes, method ≠ route.1) (whole : method ≠ "HEAD")
    : methods.endpoint? method = none := by
  have missing : methods.routes.lookup method = none :=
    List.lookup_eq_none_iff.mpr fun route member => bne_iff_ne.mpr (other route member)
  rw [endpoint?, missing]
  exact if_neg whole

/-- A layer is around whatever endpoint a request is sent to. -/
theorem Router.route_layer {ε δ : Type} (wrap : ε → δ) (router : Router ε) (request : Request)
    : (router.layer wrap).route request
      = (wrap (router.route request).1, (router.route request).2) := by
  rw [route, route, layer]
  simp only
  cases router.paths request.target.path with
  | none => rfl
  | some methods =>
      simp only [Option.map_some, Methods.endpoint?_layer]
      cases methods.endpoint? request.method with
      | none => rfl
      | some endpoint => rfl

/-- What is done to a response outside the layers leaves its identifier alone. -/
theorem values_finished (method : String) (allow : Option String) (response : Response)
    : Header.values requestIdName (response.finished method allow).headers
      = Header.values requestIdName response.headers := by
  have same : Header.values requestIdName (response.finished method allow).headers
      = Header.values requestIdName
          (response.carrying "allow" (allow.map Text.Utf8.ofString)).headers := by
    rw [Response.finished]
    split <;> rfl
  rw [same]
  cases allow with
  | none => rfl
  | some methods => exact Header.values_adding_other (isNamed_requestIdName (by simp) _)

/-- Whatever a request is sent to gets it with its identifier. The response is the one that is there within
the limit or tells that it took too long, and carries the identifier.
-/
theorem serve_layered {layers : Layers σ} {draw : σ → Uuid} (documented : layers.Documented draw)
    (router : Router (Handler σ)) (limit : Span) (request : Request) (s : σ)
    : ∃ s', ((layered layers router limit).serve request s).1
      = ((((router.route request).1 limit (request.identified (draw s)) s').1.getD timedOut).carrying
          requestIdName (some (requestId (draw s) request))).finished
          request.method (router.route request).2 := by
  simp only [Router.serve, layered, Router.route_layer]
  -- from the layer that runs first to the handler
  obtain ⟨s₁, set⟩ := documented.set
    (layers.trace (layers.propagate requestIdName (layers.timeout limit (router.route request).1)))
    request s
  obtain ⟨s₂, traced⟩ := documented.trace
    (layers.propagate requestIdName (layers.timeout limit (router.route request).1))
    (request.identified (draw s)) s₁
  obtain ⟨s₃, propagated⟩ := documented.propagate requestIdName
    (layers.timeout limit (router.route request).1) (request.identified (draw s)) s₂
  obtain ⟨s₄, timed⟩ := documented.timeout limit (router.route request).1 (request.identified (draw s)) s₃
  exact ⟨s₄, by rw [set, traced, propagated, timed, first?_identified]⟩

/-- Nothing that a router sends requests to gives a header of a name by itself. -/
def Router.SetsNo (name : String) (router : Router (Handler σ)) : Prop :=
  ∀ asked limit request s response, ((router.route asked).1 limit request s).1 = some response →
    response.Lacks name

theorem values_served {layers : Layers σ} {draw : σ → Uuid} (documented : layers.Documented draw)
    {router : Router (Handler σ)} (unset : router.SetsNo requestIdName) (limit : Span) (request : Request)
    (s : σ)
    : Header.values requestIdName ((layered layers router limit).serve request s).1.headers
      = [requestId (draw s) request] := by
  obtain ⟨s', served⟩ := serve_layered documented router limit request s
  rw [served, values_finished]
  refine Header.values_adding ?_ _
  cases answer : ((router.route request).1 limit (request.identified (draw s)) s').1 with
  | none => rfl
  | some response => exact unset request limit _ s' response answer

end PersonRegistry.Web
