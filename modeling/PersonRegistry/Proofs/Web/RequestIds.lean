import PersonRegistry.Proofs.Service.Requests
import PersonRegistry.Proofs.Web.Effects
import PersonRegistry.Proofs.Web.Layers

/-! The operations on persons through their router and its layers. They respond as `respondWithin` tells, and
every response has exactly one identifier.
-/

namespace PersonRegistry

-----------------------------------------------------------------------------------------
-- Results of programs
-----------------------------------------------------------------------------------------

namespace Service

namespace Program

variable {α β σ : Type} {perform : (c : Call) → σ → c.Answer × σ} {allows : σ → Bool}
  {p : α → Prop}

/-- Whatever the answers to its calls, a program ends with something that has a property. -/
def Gives (p : α → Prop) : Program α → Prop
  | .done a => p a
  | .ask _ next => ∀ answer, (next answer).Gives p

theorem Gives.bind {f : β → Program α} (program : Program β) (gives : ∀ b, (f b).Gives p)
    : (program.bind f).Gives p := by
  induction program with
  | done b => exact gives b
  | ask c next ih => exact fun answer => ih answer

/-- A run that is not stopped ends with such a result, by induction on the program. -/
theorem Gives.of_runWhile {program : Program α} {s : σ} {a : α} (gives : program.Gives p)
    (ends : (program.runWhile perform allows s).1 = some a)
    : p a := by
  induction program generalizing s with
  | done b => exact Option.some.inj ends ▸ gives
  | ask c next ih =>
      rw [runWhile] at ends
      simp only at ends
      split at ends
      next => exact ih _ (gives _) ends
      next => cases ends

/-- What is done with the result takes no time. By induction on the program. -/
theorem runWhile_bind_done (program : Program α) (f : α → β) (s : σ)
    : (program.bind fun a => done (f a)).runWhile perform allows s
      = ((program.runWhile perform allows s).1.map f, (program.runWhile perform allows s).2) := by
  induction program generalizing s with
  | done a => rfl
  | ask c next ih =>
      rw [bind, runWhile, runWhile]
      simp only
      split
      next => exact ih _ _
      next => rfl

end Program

namespace Backend

variable {α β : Type} {b : Backend} {limit : Time.Span}

theorem runWithin_fst (program : Program α)
    : (b.runWithin limit program).1
      = (program.runWhile perform (·.time ≤ b.time + limit) b).1 := by
  rw [runWithin]
  generalize program.runWhile perform _ b = stopped
  obtain ⟨answer, after⟩ := stopped
  cases answer <;> rfl

theorem gives_runWithin {p : α → Prop} {program : Program α} {a : α} (gives : program.Gives p)
    (ends : (b.runWithin limit program).1 = some a)
    : p a := by
  rw [runWithin_fst] at ends
  exact gives.of_runWhile ends

theorem runWithin_bind_done (program : Program α) (f : α → β)
    : b.runWithin limit (program.bind fun a => .done (f a))
      = ((b.runWithin limit program).1.map f, (b.runWithin limit program).2) := by
  rw [runWithin, runWithin, Program.runWhile_bind_done]
  generalize program.runWhile perform _ b = stopped
  obtain ⟨answer, after⟩ := stopped
  cases answer <;> rfl

end Backend
end Service

namespace Web

open Service (Backend Program)
open Text (Octets)
open Time (Span)

variable {σ : Type} {request : Request}

-----------------------------------------------------------------------------------------
-- The operations on persons
-----------------------------------------------------------------------------------------

section Unset

variable {α : Type}

theorem ofJson_lacks (status : Nat) (body : List Char)
    : (Response.ofJson status body).Lacks requestIdName :=
  Header.values_other (isNamed_requestIdName (by simp) _)

theorem errorResponse_lacks (e : Service.Error) : (errorResponse e).Lacks requestIdName := by
  cases e with
  | lookup e =>
      rw [errorResponse, lookupResponse]
      split
      next => exact ofJson_lacks _ _
      next =>
        simp only
        split
        next => exact ofJson_lacks _ _
        next =>
          rw [Response.Lacks, Header.values_append, List.append_eq_nil_iff]
          exact ⟨ofJson_lacks _ _, Header.values_other (isNamed_requestIdName (by simp) _)⟩
  | _ => exact ofJson_lacks _ _

theorem answering_gives {respond : α → Response} (program : Program (Except Service.Error α))
    (lacks : ∀ a, (respond a).Lacks requestIdName)
    : (answering respond program).Gives (Response.Lacks requestIdName) := by
  refine .bind program fun result => ?_
  cases result with
  | ok a => exact lacks a
  | error e => exact errorResponse_lacks e

theorem reading_gives {read : Except Response α} {next : α → Program Response}
    (refuses : ∀ response, read = .error response → ∃ reason, response = .badRequest reason)
    (goesOn : ∀ a, (next a).Gives (Response.Lacks requestIdName))
    : (reading read next).Gives (Response.Lacks requestIdName) := by
  cases found : read with
  | ok a => exact goesOn a
  | error response =>
      obtain ⟨reason, rfl⟩ := refuses response found
      exact ofJson_lacks _ _

end Unset

/-- A header that is no content type does not matter to reading the body. -/
theorem readBody_identified {α : Type} (decode : Octets → Except Json.DecodeError α) (fresh : Uuid)
    (request : Request)
    : readBody decode (request.identified fresh) = readBody decode request := by
  have apart (value : Octets) : Header.isNamed "content-type" ⟨requestIdName, value⟩ = false := by
    rw [Header.isNamed_comm]
    exact isNamed_requestIdName (by simp) []
  have same : Header.firstText? "content-type" (request.identified fresh).headers
      = Header.firstText? "content-type" request.headers := by
    rw [Header.firstText?, Header.firstText?, Header.first?_eq_head?, Header.first?_eq_head?,
      Request.identified, Header.values_adding_other (apart _)]
  rw [readBody, readBody, same]
  rfl

/-- A program for requests neither sets an identifier nor takes notice of one. -/
structure IgnoresIds (program : Request → Program Response) : Prop where
  gives (request : Request) : (program request).Gives (Response.Lacks requestIdName)
  same (fresh : Uuid) (request : Request) : program (request.identified fresh) = program request

namespace IgnoresIds

theorem status (status : Nat) : IgnoresIds fun _ => .done { status } where
  gives _ := rfl
  same _ _ := rfl

theorem list : IgnoresIds respondList where
  gives request := by
    rw [respondList]
    split
    next => exact ofJson_lacks _ _
    next => exact answering_gives _ fun _ => ofJson_lacks _ _
  same _ _ := rfl

theorem create : IgnoresIds respondCreate where
  gives _ := reading_gives (fun _ => eq_badRequest_of_readBody) fun _ =>
    answering_gives _ fun _ => ofJson_lacks _ _
  same fresh request := by rw [respondCreate, readBody_identified, respondCreate]

theorem get (span : Span) (segment : Octets) : IgnoresIds fun _ => respondGet span segment where
  gives _ := reading_gives (fun _ => eq_badRequest_of_pathId) fun _ =>
    answering_gives _ fun _ => ofJson_lacks _ _
  same _ _ := rfl

theorem update (segment : Octets) : IgnoresIds (respondUpdate segment) where
  gives _ := reading_gives (fun _ => eq_badRequest_of_pathId) fun _ =>
    reading_gives (fun _ => eq_badRequest_of_readBody) fun _ =>
      answering_gives _ fun _ => ofJson_lacks _ _
  same fresh request := by rw [respondUpdate, readBody_identified, respondUpdate]

theorem delete (segment : Octets) : IgnoresIds fun _ => respondDelete segment where
  gives _ := reading_gives (fun _ => eq_badRequest_of_pathId) fun _ => answering_gives _ fun _ => rfl
  same _ _ := rfl

end IgnoresIds

/-- A request is responded to as its router does: the router sends it to a program, and finishes the responses
of that. It lists the methods of a path only where the program refuses the method.
-/
inductive SentTo (span : Span) (request : Request) (responds : Program Response) : Prop
  | intro (program : Request → Program Response) (allow : Option String) (ignores : IgnoresIds program)
      (route : (apiRouter span).route request = (handling program, allow))
      (finishes : responds
        = (program request).bind fun response => .done (response.finished request.method allow))
      (refuses : allow = none ∨ program = fun _ => .done { status := 405 })

namespace SentTo

variable {span : Span} {resource : Resource} {program : Request → Program Response}
  (path : Resource.ofPath? request.target.path = some resource)

include path

theorem endpoint (ignores : IgnoresIds program) (whole : request.method ≠ "HEAD")
    (found : (resource.handlers span).endpoint? request.method = some (handling program))
    : SentTo span request (program request) := by
  refine .intro program none ignores ?_ ?_ (.inl rfl)
  · simp only [Router.route, apiRouter, path, Option.map_some, found]
  · have kept (response : Response) : response.finished request.method none = response := by
      rw [Response.finished, if_neg whole]; rfl
    simp only [kept]
    induction program request with
    | done response => rfl
    | ask c next ih => exact congrArg _ (funext ih)

theorem headOnly (ignores : IgnoresIds program) (head : request.method = "HEAD")
    (found : (resource.handlers span).endpoint? request.method = some (handling program))
    : SentTo span request (headOnly (program request)) := by
  refine .intro program none ignores ?_ ?_ (.inl rfl)
  · simp only [Router.route, apiRouter, path, Option.map_some, found]
  · rw [head]; rfl

theorem refusal (whole : request.method ≠ "HEAD")
    (missing : (resource.handlers span).endpoint? request.method = none)
    : SentTo span request (.done (methodNotAllowed resource)) := by
  refine .intro _ (some resource.allowed) (.status 405) ?_ ?_ (.inr rfl)
  · simp only [Router.route, apiRouter, path, Option.map_some, missing]
    cases resource <;> rfl
  · rw [Program.bind, Response.finished, if_neg whole]; rfl

end SentTo

/-- What `respond` tells of a request is what its router reaches, by cases on the resource and the method. -/
theorem respond_sentTo (span : Span) (request : Request)
    : SentTo span request (respond span request) := by
  fun_cases respond span request with
  | case1 path =>
      refine .intro _ none (.status 404) ?_ ?_ (.inl rfl)
      · simp only [Router.route, apiRouter, path, Option.map_none]
        rfl
      · simp only [Program.bind, Response.finished, Response.carrying, Option.map_none]
        split <;> rfl
  | case2 path get => exact .endpoint path .list (by simp [get]) (by rw [get]; rfl)
  | case3 path head => exact .headOnly path .list head (by rw [head]; rfl)
  | case4 path post => exact .endpoint path .create (by simp [post]) (by rw [post]; rfl)
  | case5 path get head post =>
      refine .refusal path head (Methods.endpoint?_eq_none ?_ head)
      simpa [Resource.handlers] using ⟨get, post⟩
  | case6 segment path get => exact .endpoint path (.get span segment) (by simp [get]) (by rw [get]; rfl)
  | case7 segment path head => exact .headOnly path (.get span segment) head (by rw [head]; rfl)
  | case8 segment path patches =>
      exact .endpoint path (.update segment) (by simp [patches]) (by rw [patches]; rfl)
  | case9 segment path deletes =>
      exact .endpoint path (.delete segment) (by simp [deletes]) (by rw [deletes]; rfl)
  | case10 segment path get head patches deletes =>
      refine .refusal path head (Methods.endpoint?_eq_none ?_ head)
      simpa [Resource.handlers] using ⟨get, patches, deletes⟩

theorem apiRouter_setsNo (span : Span) : (apiRouter span).SetsNo requestIdName := by
  intro asked limit request b response ends
  obtain ⟨program, allow, ignores, route, -, -⟩ := respond_sentTo span asked
  rw [route] at ends
  exact Backend.gives_runWithin (ignores.gives request) ends

theorem set_plain (fresh : Uuid) (endpoint : Endpoint σ) (request : Request) (s : σ)
    : (Layers.plain fun s => (fresh, s)).set requestIdName endpoint request s
      = endpoint (request.identified fresh) s := by
  simp only [Layers.plain, Request.identified, Header.adding]
  cases first : Header.first? requestIdName request.headers <;> rfl

/-- With layers that do no more than they must, any router serves a request like this. -/
theorem serve_plain (fresh : Uuid) (router : Router (Handler σ)) (limit : Span) (request : Request) (s : σ)
    : let asked := (router.route request).1 limit (request.identified fresh) s
      (layered (.plain fun s => (fresh, s)) router limit).serve request s
      = (((asked.1.getD timedOut).carrying requestIdName (some (requestId fresh request))).finished
          request.method (router.route request).2, asked.2) := by
  intro asked
  simp only [Router.serve, layered, Router.route_layer, set_plain]
  rw [← first?_identified]
  rfl

/-- Two responses that differ at most in the order of their headers. -/
structure Response.Alike (left right : Response) : Prop where
  status : left.status = right.status
  headers : left.headers.Perm right.headers
  body : left.body = right.body

theorem identified_eq_carrying (response : Response) (id : Octets)
    : response.identified id = response.carrying requestIdName (some id) := by
  simp only [Response.identified, Response.carrying, Header.adding]
  split <;> rfl

theorem carrying_status (response : Response) (name : String) (value : Option Octets)
    : (response.carrying name value).status = response.status := by
  cases value <;> rfl

theorem carrying_body (response : Response) (name : String) (value : Option Octets)
    : (response.carrying name value).body = response.body := by
  cases value <;> rfl

/-- A response may get its identifier before or after the router has finished it. -/
theorem carrying_finished (method : String) (allow : Option String) (id : Octets) (response : Response)
    : ((response.carrying requestIdName (some id)).finished method allow).Alike
        ((response.finished method allow).identified id) := by
  let listed := allow.map Text.Utf8.ofString
  have alike : ((response.carrying requestIdName (some id)).carrying "allow" listed).Alike
      ((response.carrying "allow" listed).carrying requestIdName (some id)) := by
    refine ⟨by simp only [carrying_status], ?_, by simp only [carrying_body]⟩
    cases allow with
    | none => exact .rfl
    | some methods =>
        have converse : Header.isNamed "allow" ⟨requestIdName, id⟩ = false := by
          rw [Header.isNamed_comm]
          exact isNamed_requestIdName (by simp) []
        exact Header.adding_perm (isNamed_requestIdName (by simp) _) converse
  rw [identified_eq_carrying, Response.finished, Response.finished]
  split
  next => exact ⟨alike.status, alike.headers, rfl⟩
  next => exact alike

/-- The router with its layers responds as `respondWithin` does, which keeps no order between the methods of
a refusal and the identifier.
-/
theorem serve_apiRouter (limit span : Span) (fresh : Uuid) (request : Request) (b : Backend)
    : let served := (layered (.plain fun b => (fresh, b)) (apiRouter span) limit).serve request b
      let response := respondWithin limit span fresh request b
      served.1.Alike response.1 ∧ served.2 = response.2 := by
  obtain ⟨program, allow, ignores, route, finishes, refuses⟩ := respond_sentTo span request
  simp only [serve_plain, route, handling, ignores.same, respondWithin, finishes,
    Backend.runWithin_bind_done, and_true]
  cases answer : (b.runWithin limit (program request)).1 with
  | some response => exact carrying_finished request.method allow _ response
  | none =>
      rcases refuses with rfl | rfl
      · have kept : timedOut.finished request.method none = timedOut := by
          rw [Response.finished]
          split <;> rfl
        have alike := carrying_finished request.method none (requestId fresh request) timedOut
        rwa [kept] at alike
      · cases answer

/-- The status is the one that the operation ends with within the limit. -/
theorem status_served (limit span : Span) (fresh : Uuid) (request : Request) (b : Backend)
    : ((layered (.plain fun b => (fresh, b)) (apiRouter span) limit).serve request b).1.status
      = ((b.runWithin limit (respond span request)).1.getD timedOut).status := by
  rw [(serve_apiRouter limit span fresh request b).1.status]
  simp only [respondWithin, Response.identified]
  split <;> rfl

-----------------------------------------------------------------------------------------
-- Every response
-----------------------------------------------------------------------------------------

/-- Every response has exactly one identifier: the first one that the request came with, or a fresh one.
That holds around any router that sets none by itself, for any layers that do what they document and any
limit of time, and of the responses to the operations on persons.
-/
theorem exactly_one_request_id
    : (∀ {σ : Type} {layers : Layers σ} {draw : σ → Uuid}, layers.Documented draw →
        ∀ {router : Router (Handler σ)}, router.SetsNo requestIdName → ∀ limit request s,
          Header.values requestIdName ((layered layers router limit).serve request s).1.headers
            = [requestId (draw s) request])
      ∧ ∀ limit span fresh request b,
          Header.values requestIdName (respondWithin limit span fresh request b).1.headers
            = [requestId fresh request] := by
  refine ⟨values_served, fun limit span fresh request b => ?_⟩
  have served := values_served (Layers.documented_plain fun b => (fresh, b)) (apiRouter_setsNo span) limit
    request b
  obtain ⟨alike, -⟩ := serve_apiRouter limit span fresh request b
  have same := Header.values_perm requestIdName alike.headers
  rw [served] at same
  exact List.perm_singleton.mp same.symm

/-- A new person is asked for and given up, a method is refused, and a path is not known. The second request
came with two identifiers, of which the first is no text.
-/
theorem exactly_one_request_id_refusals
    : let draw (b : Backend) : Uuid × Backend := (.nil, b)
      let router := apiRouter Service.defaultCacheSpan
      let b : Backend := .answering .nil
      let create : Request :=
        { method := "POST", target := ⟨Resource.personsPath, none⟩
          headers := [.ofText "content-type" "application/json"]
          body := Text.Utf8.ofString "\x7b\"name\":\"Ada\",\"surname\":\"Byron\"\x7d" }
      let replace : Request :=
        { method := "PUT", target := ⟨Resource.personsPath, none⟩
          headers := [⟨"X-Request-ID", [0xff]⟩, .ofText "x-request-id" "second"] }
      let lost : Request := { method := "HEAD", target := ⟨[0x2f], none⟩ }
      let served := fun request => ((layered (.plain draw) router 5).serve request b).1
      (Layers.plain draw).Documented (fun b => (draw b).1) ∧ router.SetsNo requestIdName
        ∧ (served create).status = 408
        ∧ Header.values requestIdName (served create).headers = [Text.Utf8.ofString Uuid.nil.text]
        ∧ (served replace).status = 405
        ∧ Header.values requestIdName (served replace).headers = [[0xff]]
        ∧ (served lost).status = 404
        ∧ Header.values requestIdName (served lost).headers = [Text.Utf8.ofString Uuid.nil.text] := by
  intro draw router b create replace lost served
  have documented : (Layers.plain draw).Documented fun b => (draw b).1 := Layers.documented_plain draw
  have unset : router.SetsNo requestIdName := apiRouter_setsNo _
  have each (request : Request)
      : (served request).status
          = ((b.runWithin 5 (respond Service.defaultCacheSpan request)).1.getD timedOut).status
        ∧ Header.values requestIdName (served request).headers = [requestId .nil request] :=
    ⟨status_served 5 _ .nil request b, exactly_one_request_id.1 documented unset 5 request b⟩
  refine ⟨documented, unset, (each create).1.trans ?_, (each create).2.trans ?_, (each replace).1.trans ?_,
    (each replace).2.trans ?_, (each lost).1.trans ?_, (each lost).2.trans ?_⟩
  · decide +kernel
  · rw [requestId, Header.first?, Header.isNamed_eq]
    decide +kernel
  · decide +kernel
  · rw [requestId, Header.first?, Header.isNamed_eq]
    decide +kernel
  · decide +kernel
  · rfl

end Web
end PersonRegistry
