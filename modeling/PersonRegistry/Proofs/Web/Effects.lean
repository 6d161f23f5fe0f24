import PersonRegistry.Proofs.Person.Coding
import PersonRegistry.Proofs.Service.Effects
import PersonRegistry.Web.Api

/-! What requests over the web change. The method and the status of the response tell it: nothing unless
the request succeeds, and never more than one row.
-/

namespace PersonRegistry.Web

open Service (AllOrNothing Backend Conditions Program defaultCacheSpan)
open Text (Octets)
open Time (Span)

variable {b after : Backend} {request : Request}

-----------------------------------------------------------------------------------------
-- Requests one after another
-----------------------------------------------------------------------------------------

/-- A request and the conditions under which it is served. -/
structure Visit where
  request : Request
  conditions : Conditions
  /-- The time by which the cache lets values expire. -/
  cacheTime : Nat := 0
  span : Span := defaultCacheSpan

namespace Visit

def serve (visit : Visit) (b : Backend) : Response × Backend :=
  Backend.run { b.under visit.conditions with cacheTime := visit.cacheTime }
    (respond visit.span visit.request)

/-- The responses to requests that are served one after another. -/
def serveAll : List Visit → Backend → List Response
  | [], _ => []
  | visit :: later, b => (visit.serve b).1 :: serveAll later (visit.serve b).2

/-- Requests are answered the same if nothing was moved before, by induction on them. -/
theorem serveAll_unmoved (unmoved : b.Unmoved after) (visits : List Visit)
    : serveAll visits after = serveAll visits b := by
  induction visits generalizing b after with
  | nil => rfl
  | cons visit later ih =>
      have alike := unmoved.under visit.conditions visit.cacheTime
      obtain ⟨answer, alike⟩ := alike.run (respond visit.span visit.request)
      have answers := ih alike.unmoved
      exact congrArg₂ List.cons answer.symm answers

end Visit

-----------------------------------------------------------------------------------------
-- Responses that are no success
-----------------------------------------------------------------------------------------

def Response.isSuccess (response : Response) : Bool :=
  200 ≤ response.status && response.status < 300

/-- No failure of the service is answered with success. -/
theorem errorResponse_fails (e : Service.Error) : (errorResponse e).isSuccess = false := by
  cases e with
  | lookup e =>
      rw [errorResponse, lookupResponse]
      split
      next => rfl
      next =>
        simp only
        split <;> rfl
  | _ => rfl

theorem eq_badRequest_of_pathId {segment : Octets} {response : Response}
    (refused : pathId segment = .error response)
    : ∃ reason, response = .badRequest reason := by
  rw [pathId] at refused
  split at refused
  next => exact ⟨_, (Except.error.inj refused).symm⟩
  next =>
    split at refused
    next => cases refused
    next => exact ⟨_, (Except.error.inj refused).symm⟩

theorem pathId_fails {segment : Octets} {response : Response}
    (refused : pathId segment = .error response)
    : response.isSuccess = false := by
  obtain ⟨reason, rfl⟩ := eq_badRequest_of_pathId refused
  rfl

theorem eq_badRequest_of_readBody {α : Type} {decode : Octets → Except Json.DecodeError α}
    {response : Response} (refused : readBody decode request = .error response)
    : ∃ reason, response = .badRequest reason := by
  rw [readBody] at refused
  split at refused
  next => exact ⟨_, (Except.error.inj refused).symm⟩
  next =>
    split at refused
    next => exact ⟨_, (Except.error.inj refused).symm⟩
    next =>
      split at refused
      next => cases refused
      next => exact ⟨_, (Except.error.inj refused).symm⟩

theorem readBody_fails {α : Type} {decode : Octets → Except Json.DecodeError α} {response : Response}
    (refused : readBody decode request = .error response)
    : response.isSuccess = false := by
  obtain ⟨reason, rfl⟩ := eq_badRequest_of_readBody refused
  rfl

-----------------------------------------------------------------------------------------
-- The effect of a request
-----------------------------------------------------------------------------------------

/-- How a request may end. It is refused and moves nothing, or it succeeds and does what its method is
there for.
-/
inductive Effect (b : Backend) (request : Request) : Response × Backend → Prop
  | refused {response : Response} {after : Backend} (fails : response.isSuccess = false)
      (unmoved : b.Unmoved after) : Effect b request (response, after)
  | read {response : Response} {after : Backend} (looks : request.method ∈ ["GET", "HEAD"])
      (status : response.status = 200) (same : after.table = b.table)
      : Effect b request (response, after)
  | created {p : Person} {row : Store.Row} {after : Backend} (posts : request.method = "POST")
      (rows : after.table.rows = b.table.rows ++ [row]) (person : row.person = .ok p)
      (live : row.isDeleted = false) : Effect b request (personResponse 201 p, after)
  | changed {segment : Octets} {id : Uuid} {p : Person} {after : Backend}
      (patches : request.method = "PATCH")
      (path : Resource.ofPath? request.target.path = some (.person segment))
      (names : pathId segment = .ok id) (rewrites : b.Rewrites id p after)
      : Effect b request (personResponse 200 p, after)
  | deleted {segment : Octets} {id : Uuid} {row : Store.Row} {after : Backend}
      (deletes : request.method = "DELETE")
      (path : Resource.ofPath? request.target.path = some (.person segment))
      (names : pathId segment = .ok id) (changes : b.ChangesRow id row (row.deleted b.now) after)
      : Effect b request ({ status := 204 }, after)

namespace Effect

/-- What is read from a request is refused, or the request goes on with it. -/
theorem reading {α : Type} {read : Except Response α} {next : α → Program Response}
    (refuses : ∀ response, read = .error response → response.isSuccess = false)
    (goesOn : ∀ a, read = .ok a → Effect b request (b.run (next a)))
    : Effect b request (b.run (reading read next)) := by
  cases found : read with
  | error response => exact .refused (refuses response found) (.refl b)
  | ok a => exact goesOn a found

/-- A call of the service that fails is refused, for it moved nothing. -/
theorem answering {α : Type} {respond : α → Response} {program : Program (Except Service.Error α)}
    {does : α → Backend → Prop} (ends : AllOrNothing b does (b.run program))
    (succeeds : ∀ a after, does a after → Effect b request (respond a, after))
    : Effect b request (b.run (answering respond program)) := by
  rw [Web.answering, Backend.run, Program.run_bind]
  rw [Backend.run] at ends
  generalize program.run Backend.perform b = ended at ends
  cases ends with
  | failed unmoved => exact .refused (errorResponse_fails _) unmoved
  | done done => exact succeeds _ _ done

/-- Leaving out the body changes no more than the response. -/
theorem headOnly {program : Program Response} (head : request.method = "HEAD")
    (effect : Effect b request (b.run program))
    : Effect b request (b.run (headOnly program)) := by
  rw [Web.headOnly, Backend.run, Program.run_bind]
  rw [Backend.run] at effect
  generalize program.run Backend.perform b = ended at effect
  cases effect with
  | refused fails unmoved => exact .refused fails unmoved
  | read looks status same => exact .read looks status same
  | created other | changed other | deleted other => simp [head] at other

end Effect

theorem respondList_effect (looks : request.method ∈ ["GET", "HEAD"])
    : Effect b request (b.run (respondList request)) := by
  rw [respondList]
  split
  next => exact .refused rfl (.refl b)
  next filter _ =>
    exact .answering (Service.list_effect b filter) fun _ _ same => .read looks rfl same

theorem respondGet_effect (looks : request.method ∈ ["GET", "HEAD"]) (span : Span) (segment : Octets)
    : Effect b request (b.run (respondGet span segment)) :=
  .reading (fun _ => pathId_fails) fun id _ =>
    .answering (Service.get_effect b span id) fun _ _ same => .read looks rfl same

theorem respondCreate_effect (posts : request.method = "POST")
    : Effect b request (b.run (respondCreate request)) :=
  .reading (fun _ => readBody_fails) fun draft _ =>
    .answering (Service.create_effect b draft) fun _ _ ⟨_, rows, person, live⟩ =>
      .created posts rows person live

section Changes

variable {segment : Octets} (path : Resource.ofPath? request.target.path = some (.person segment))
  (distinct : (b.table.rows.map (·.personId)).Nodup) (clears : b.isDown .cacheDelete = false)

include path distinct clears

theorem respondUpdate_effect (calm : b.isDown .storeVanish = false)
    (patches : request.method = "PATCH")
    : Effect b request (b.run (respondUpdate segment request)) :=
  .reading (fun _ => pathId_fails) fun id names =>
    .reading (fun _ => readBody_fails) fun patch _ =>
      .answering (Service.update_effect distinct clears calm id patch) fun _ _ =>
        .changed patches path names

theorem respondDelete_effect (deletes : request.method = "DELETE")
    : Effect b request (b.run (respondDelete segment)) :=
  .reading (fun _ => pathId_fails) fun id names =>
    .answering (Service.delete_effect distinct clears id) fun _ _ ⟨_, changes⟩ =>
      .deleted deletes path names changes

end Changes

/-- The effect of any request, by cases on the resource and the method. -/
theorem respond_effect (reachable : b.Reachable) (clears : b.isDown .cacheDelete = false)
    (calm : b.isDown .storeVanish = false) (span : Span) (request : Request)
    : Effect b request (b.run (respond span request)) := by
  have distinct := reachable.distinct
  rw [respond]
  split
  next => exact .refused rfl (.refl b)
  next =>
    split
    next get => exact respondList_effect (by simp [get])
    next head => exact .headOnly head (respondList_effect (by simp [head]))
    next post => exact respondCreate_effect post
    next => exact .refused rfl (.refl b)
  next segment path =>
    split
    next get => exact respondGet_effect (by simp [get]) span segment
    next head => exact .headOnly head (respondGet_effect (by simp [head]) span segment)
    next patches => exact respondUpdate_effect path distinct clears calm patches
    next deletes => exact respondDelete_effect path distinct clears deletes
    next => exact .refused rfl (.refl b)

-----------------------------------------------------------------------------------------
-- Requests that nothing answers
-----------------------------------------------------------------------------------------

namespace Resource

/-- The methods a resource answers. -/
def methods : Resource → List String
  | .persons => ["GET", "HEAD", "POST"]
  | .person _ => ["GET", "HEAD", "PATCH", "DELETE"]

/-- They are those that a refusal lists. -/
theorem allowed_eq_methods (resource : Resource)
    : resource.allowed = ",".intercalate resource.methods := by
  cases resource <;> rfl

end Resource

/-- A request for no resource, or by a method that its resource does not answer, is refused at once. -/
theorem respond_outside (b : Backend) (span : Span) (request : Request)
    (outside : ∀ resource, Resource.ofPath? request.target.path = some resource →
      request.method ∉ resource.methods)
    : (b.run (respond span request)).1.isSuccess = false
      ∧ (b.run (respond span request)).2 = b := by
  rw [respond]
  split
  next => exact ⟨rfl, rfl⟩
  next path =>
    have other := outside _ path
    simp only [Resource.methods, List.mem_cons, not_or] at other
    split
    next get => exact absurd get other.1
    next head => exact absurd head other.2.1
    next post => exact absurd post other.2.2.1
    next => exact ⟨rfl, rfl⟩
  next segment path =>
    have other := outside _ path
    simp only [Resource.methods, List.mem_cons, not_or] at other
    split
    next get => exact absurd get other.1
    next head => exact absurd head other.2.1
    next patches => exact absurd patches other.2.2.1
    next deletes => exact absurd deletes other.2.2.2.1
    next => exact ⟨rfl, rfl⟩

-----------------------------------------------------------------------------------------
-- The effect and the status
-----------------------------------------------------------------------------------------

namespace Effect

variable {response : Response}

theorem unmoved (effect : Effect b request (response, after)) (fails : response.isSuccess = false)
    : b.Unmoved after := by
  cases effect with
  | refused _ unmoved => exact unmoved
  | read _ status _ => simp [Response.isSuccess, status] at fails
  | created | changed | deleted => nomatch fails

theorem looked (effect : Effect b request (response, after)) (looks : request.method ∈ ["GET", "HEAD"])
    : after.table = b.table := by
  cases effect with
  | refused _ unmoved => exact unmoved.table
  | read _ _ same => exact same
  | created other | changed other | deleted other => simp [other] at looks

/-- There is one status for the success of each method. -/
theorem listed (effect : Effect b request (response, after)) (success : response.isSuccess = true)
    : (request.method, response.status)
      ∈ [("GET", 200), ("HEAD", 200), ("POST", 201), ("PATCH", 200), ("DELETE", 204)] := by
  cases effect with
  | refused fails _ => simp [fails] at success
  | read looks status _ =>
      rcases List.mem_pair.mp looks with get | head
      · simp [get, status]
      · simp [head, status]
  | created posts => simp [posts, personResponse, Response.ofJson]
  | changed patches => simp [patches, personResponse, Response.ofJson]
  | deleted deletes => simp [deletes]

theorem posted (effect : Effect b request (response, after)) (posts : request.method = "POST")
    (status : response.status = 201)
    : ∃ p row, Person.decode response.body = .ok p ∧ row.person = .ok p ∧ row.isDeleted = false
      ∧ after.table.rows = b.table.rows ++ [row] := by
  cases effect with
  | refused fails _ => simp [Response.isSuccess, status] at fails
  | read other => simp [posts] at other
  | @created p row _ _ rows person live => exact ⟨p, row, p.decode_encode, person, live, rows⟩
  | changed other | deleted other => simp [posts] at other

theorem patched (effect : Effect b request (response, after)) (patches : request.method = "PATCH")
    (status : response.status = 200)
    : ∃ segment id p row, Resource.ofPath? request.target.path = some (.person segment)
      ∧ pathId segment = .ok id ∧ Person.decode response.body = .ok p
      ∧ b.ChangesRow id row (row.overwritten b.now p) after
      ∧ (row.overwritten b.now p).person = .ok p := by
  cases effect with
  | refused fails _ => simp [Response.isSuccess, status] at fails
  | read other => simp [patches] at other
  | @changed segment id p _ _ path names rewrites =>
      obtain ⟨row, changes, person⟩ := rewrites
      exact ⟨segment, id, p, row, path, names, p.decode_encode, changes, person⟩
  | created other | deleted other => simp [patches] at other

theorem marked (effect : Effect b request (response, after)) (deletes : request.method = "DELETE")
    (status : response.status = 204)
    : ∃ segment id row, Resource.ofPath? request.target.path = some (.person segment)
      ∧ pathId segment = .ok id ∧ b.ChangesRow id row (row.deleted b.now) after := by
  cases effect with
  | refused fails _ => simp [Response.isSuccess, status] at fails
  | read other => simp [deletes] at other
  | deleted _ path names changes => exact ⟨_, _, _, path, names, changes⟩
  | created other | changed other => simp [deletes] at other

end Effect

/-- A request changes what its status says, while the cache can be cleared and nobody else deletes
persons. Without success no row is changed, and later requests are answered as if it had not been made.
`GET` and `HEAD` change no row. Success on any other method adds the person in the body, writes it over
the row the path names, or marks that row as deleted; all other rows stay as they are. What the routes do
not answer changes nothing at all.
-/
theorem respond_effects (reachable : b.Reachable) (clears : b.isDown .cacheDelete = false)
    (calm : b.isDown .storeVanish = false) (span : Span) (request : Request)
    : let (response, after) := b.run (respond span request)
      (response.isSuccess = false →
          after.table = b.table
            ∧ ∀ visits, Visit.serveAll visits after = Visit.serveAll visits b)
        ∧ (request.method ∈ ["GET", "HEAD"] → after.table = b.table)
        ∧ (response.isSuccess = true →
            (request.method, response.status)
              ∈ [("GET", 200), ("HEAD", 200), ("POST", 201), ("PATCH", 200), ("DELETE", 204)])
        ∧ (request.method = "POST" → response.status = 201 →
            ∃ p row, Person.decode response.body = .ok p
              ∧ row.person = .ok p ∧ row.isDeleted = false
              ∧ after.table.rows = b.table.rows ++ [row])
        ∧ (request.method = "PATCH" → response.status = 200 →
            ∃ segment id p row, Resource.ofPath? request.target.path = some (.person segment)
              ∧ pathId segment = .ok id
              ∧ Person.decode response.body = .ok p
              ∧ b.ChangesRow id row (row.overwritten b.now p) after
              ∧ (row.overwritten b.now p).person = .ok p)
        ∧ (request.method = "DELETE" → response.status = 204 →
            ∃ segment id row, Resource.ofPath? request.target.path = some (.person segment)
              ∧ pathId segment = .ok id
              ∧ b.ChangesRow id row { row with isDeleted := true, updatedAt := b.now.text } after)
        ∧ ((∀ resource, Resource.ofPath? request.target.path = some resource →
              request.method ∉ resource.methods) →
            response.isSuccess = false ∧ after = b) := by
  have effect := respond_effect reachable clears calm span request
  have outside := respond_outside b span request
  generalize b.run (respond span request) = ended at effect outside
  obtain ⟨response, after⟩ := ended
  refine ⟨fun fails => ?_, effect.looked, effect.listed, effect.posted, effect.patched, effect.marked,
    outside⟩
  have unmoved := effect.unmoved fails
  exact ⟨unmoved.table, Visit.serveAll_unmoved unmoved⟩

/-- Ada is posted, and then her age is patched. -/
theorem respond_effects_patched
    : let json : Header := .ofText "content-type" "application/json"
      let post : Request :=
        { method := "POST", target := ⟨Resource.personsPath, none⟩, headers := [json]
          body := Text.Utf8.ofString "\x7b\"name\":\"Ada\",\"surname\":\"Byron\"\x7d" }
      let segment := Text.Utf8.ofString Uuid.nil.text
      let patch : Request :=
        { method := "PATCH", target := ⟨Resource.personsPath ++ 0x2f :: segment, none⟩
          headers := [json], body := Text.Utf8.ofString "\x7b\"age\":37\x7d" }
      let b := ((Backend.answering .nil).run (respond defaultCacheSpan post)).2
      let ended := b.run (respond defaultCacheSpan patch)
      let ada : Person :=
        { id := some .nil, name := "Ada", surname := "Byron", age := some 37, gender := some "female"
          nationality := some "GB" }
      b.Reachable ∧ b.isDown .cacheDelete = false ∧ b.isDown .storeVanish = false
        ∧ ended.1.status = 200
        ∧ ∃ row, b.ChangesRow .nil row (row.overwritten b.now ada) ended.2 := by
  intro json post segment patch b ended ada
  have reachable : b.Reachable := Backend.Reachable.run (.start rfl) _
  have up : b.outages = [] := by decide +kernel
  have clears : b.isDown .cacheDelete = false := congrArg (·.contains .cacheDelete) up
  have calm : b.isDown .storeVanish = false := congrArg (·.contains .storeVanish) up
  have answered : ended.1 = personResponse 200 ada := by decide +kernel
  have status : ended.1.status = 200 := congrArg Response.status answered
  have given : Person.decode ended.1.body = .ok ada := by
    rw [answered]
    exact ada.decode_encode
  have here : Resource.ofPath? patch.target.path = some (.person segment) := by decide +kernel
  have own : pathId segment = .ok .nil := by decide +kernel
  obtain ⟨-, -, -, -, patched, -⟩ := respond_effects reachable clears calm defaultCacheSpan patch
  obtain ⟨place, id, p, row, path, names, body, changes, -⟩ := patched rfl status
  obtain rfl : place = segment := Resource.person.inj (Option.some.inj (path.symm.trans here))
  obtain rfl : id = .nil := Except.ok.inj (names.symm.trans own)
  obtain rfl : p = ada := Except.ok.inj (body.symm.trans given)
  exact ⟨reachable, clears, calm, status, row, changes⟩

end PersonRegistry.Web
