import PersonRegistry.Proofs.Service.GivenUp
import PersonRegistry.Proofs.Web.Effects
import PersonRegistry.Web.Envelope

/-! Requests over the web that are given up because their time is over, and what is answered afterwards: the
persons on record, unless a change was given up between its call of the store and its call of the cache.
-/

namespace PersonRegistry.Web

open Service (Backend Conditions LeftBehind Outage Program defaultCacheSpan)
open Text (Octets)
open Time (Span)

variable {b : Backend} {request : Request} {since : Nat} {stale : Uuid → Person → Prop}

-----------------------------------------------------------------------------------------
-- Giving up
-----------------------------------------------------------------------------------------

/-- Gives a request up once it has made some calls. What was called for is done, but the answer to the last
call is not waited for.
-/
def respondUntil (calls : Nat) (span : Span) (fresh : Uuid) (request : Request) (b : Backend) :
    Response × Backend :=
  (timedOut.identified (requestId fresh request),
    ((respond span request).advance Backend.perform calls b).2)

/-- A request whose time is limited is responded to, or was given up after some calls. -/
theorem respondWithin_cases (limit span : Span) (fresh : Uuid) (request : Request) (b : Backend)
    : respondWithin limit span fresh request b
        = ((b.run (respond span request)).1.identified (requestId fresh request),
          (b.run (respond span request)).2)
      ∨ ∃ calls, respondWithin limit span fresh request b
        = ((respondUntil calls span fresh request b).1,
          { (respondUntil calls span fresh request b).2 with time := b.time + limit }) := by
  have stops := Program.runWhile_cases Backend.perform (·.time ≤ b.time + limit)
    (respond span request) b
  rw [respondWithin, Backend.runWithin]
  rcases stops with ends | ⟨calls, stops⟩
  · exact .inl (by rw [ends]; rfl)
  · exact .inr ⟨calls, by rw [stops]; rfl⟩

/-- The path of a request names a person. -/
def Request.Names (request : Request) (id : Uuid) : Prop :=
  ∃ segment, Resource.ofPath? request.target.path = some (.person segment) ∧ pathId segment = .ok id

-----------------------------------------------------------------------------------------
-- What requests leave behind
-----------------------------------------------------------------------------------------

/-- What a request has left behind once it has made some calls: the cache is as current as before, or a
change has left behind what it may.
-/
inductive Aftermath (b : Backend) (request : Request) (calls : Nat) (after : Backend) : Prop
  | current (keeps : ∀ since stale, b.Current since stale → after.Current since stale)
  | change {id : Uuid} (names : request.Names id) (left : LeftBehind b id (calls < 3) after)

/-- What a program has left behind, however far it got. -/
def Leaves (b : Backend) (request : Request) {α : Type} (program : Program α) : Prop :=
  ∀ calls, Aftermath b request calls (program.advance Backend.perform calls b).2

namespace Leaves

variable {α : Type}

theorem done (a : α) : Leaves b request (Program.done a) := by
  intro calls
  rw [Program.advance_done]
  exact .current fun _ _ current => current

theorem of_bind_done {β : Type} {program : Program α} (leaves : Leaves b request program) (f : α → β)
    : Leaves b request (program.bind fun a => .done (f a)) := by
  intro calls
  rw [Program.advance_bind_done]
  exact leaves calls

/-- A program makes no calls after another one if it ends at once, whatever that one gives. -/
theorem of_bind {β : Type} {program : Program α} (leaves : Leaves b request program) {next : α → Program β}
    (ends : ∀ a, ∃ result, next a = .done result)
    : Leaves b request (program.bind next) := by
  obtain ⟨f, same⟩ := Classical.axiomOfChoice ends
  rw [funext same]
  exact leaves.of_bind_done f

theorem headOnly {program : Program Response} (leaves : Leaves b request program)
    : Leaves b request (headOnly program) :=
  leaves.of_bind_done _

/-- Answering makes no calls of its own. -/
theorem answering {respond : α → Response} {program : Program (Except Service.Error α)}
    (leaves : Leaves b request program)
    : Leaves b request (answering respond program) := by
  refine leaves.of_bind fun result => ?_
  cases result with
  | ok a => exact ⟨respond a, rfl⟩
  | error e => exact ⟨errorResponse e, rfl⟩

theorem reading {read : Except Response α} {next : α → Program Response}
    (goesOn : ∀ a, read = .ok a → Leaves b request (next a))
    : Leaves b request (reading read next) := by
  cases found : read with
  | error response => exact .done response
  | ok a => exact goesOn a found

end Leaves

theorem respondList_leaves : Leaves b request (respondList request) := by
  rw [respondList]
  split
  next => exact .done _
  next =>
    refine .answering fun calls => .current fun _ _ current => ?_
    exact Service.current_of_adds (Service.list_keeps trivial) current calls

theorem respondCreate_leaves : Leaves b request (respondCreate request) :=
  .reading fun draft _ => .answering fun calls => .current fun _ _ current =>
    Service.current_of_adds (Service.create_adds draft) current calls

theorem respondGet_leaves (span : Span) (segment : Octets)
    : Leaves b request (respondGet span segment) :=
  .reading fun id _ => .answering fun calls => .current fun _ _ current =>
    Service.current_get current span id calls

section Changes

variable {segment : Octets} (path : Resource.ofPath? request.target.path = some (.person segment))

include path

theorem respondUpdate_leaves : Leaves b request (respondUpdate segment request) :=
  .reading fun id names => .reading fun patch _ => .answering fun calls =>
    .change ⟨segment, path, names⟩ (Service.leftBehind_update b id patch calls)

theorem respondDelete_leaves : Leaves b request (respondDelete segment) :=
  .reading fun id names => .answering fun calls =>
    .change ⟨segment, path, names⟩ (Service.leftBehind_delete b id calls)

end Changes

/-- What any request leaves behind, by cases on the resource and the method. -/
theorem respond_leaves (b : Backend) (span : Span) (request : Request)
    : Leaves b request (respond span request) := by
  rw [respond]
  split
  next => exact .done _
  next =>
    split
    next => exact respondList_leaves
    next => exact respondList_leaves.headOnly
    next => exact respondCreate_leaves
    next => exact .done _
  next segment path =>
    split
    next => exact respondGet_leaves span segment
    next => exact (respondGet_leaves span segment).headOnly
    next => exact respondUpdate_leaves path
    next => exact respondDelete_leaves path
    next => exact .done _

-----------------------------------------------------------------------------------------
-- Requests afterwards
-----------------------------------------------------------------------------------------

namespace Visit

/-- The cache can be cleared, nobody else deletes persons meanwhile, and time does not run backwards. -/
structure IsOrderly (visit : Visit) (since : Nat) : Prop where
  clears : .cacheDelete ∉ visit.conditions.outages
  calm : .storeVanish ∉ visit.conditions.outages
  later : since ≤ visit.cacheTime

/-- The surroundings after requests that are served one after another. -/
def after : List Visit → Backend → Backend
  | [], b => b
  | visit :: later, b => after later (visit.serve b).2

theorem serve_current (visit : Visit) (orderly : visit.IsOrderly since)
    (current : b.Current since stale)
    : (visit.serve b).2.Current since stale := by
  have begun : Backend.Current since stale { b.under visit.conditions with cacheTime := visit.cacheTime } :=
    current
  obtain ⟨calls, enough, ends⟩ := (respond visit.span visit.request).exists_advance Backend.perform
    { b.under visit.conditions with cacheTime := visit.cacheTime } 3
  have left := respond_leaves { b.under visit.conditions with cacheTime := visit.cacheTime } visit.span
    visit.request calls
  rw [ends] at left
  cases left with
  | current keeps => exact keeps since stale begun
  | change names left =>
      refine left.current (Nat.not_lt.mpr enough) ?_ ?_ begun
      · simpa [Backend.isDown, Backend.under] using orderly.clears
      · simpa [Backend.isDown, Backend.under] using orderly.calm

/-- Requests that are served to the end keep the cache current, by induction on them. -/
theorem after_current {visits : List Visit} (orderly : ∀ visit ∈ visits, visit.IsOrderly since)
    (current : b.Current since stale)
    : (after visits b).Current since stale := by
  induction visits generalizing b with
  | nil => exact current
  | cons visit later ih =>
      obtain ⟨first, others⟩ := List.forall_mem_cons.mp orderly
      exact ih others (visit.serve_current first current)

end Visit

/-- The response to whoever asks for a person: the person on record, or that there is none. -/
def recordResponse (id : Uuid) : Option Person → Response
  | some p => personResponse 200 p
  | none => errorResponse (.notFound id)

/-- A person is answered from the store, or as the cache gives it. -/
theorem serve_get (b : Backend) {visit : Visit} {id : Uuid} {found : Option Person}
    (gets : visit.request.method = "GET") (names : visit.request.Names id)
    (up : .storeGet ∉ visit.conditions.outages) (later : since ≤ visit.cacheTime)
    (live : b.table.get id = .ok found)
    : (visit.serve b).1 = recordResponse id found
      ∨ ∃ p, b.Caches since id p ∧ (visit.serve b).1 = personResponse 200 p := by
  obtain ⟨segment, path, own⟩ := names
  have asks : respond visit.span visit.request
      = answering (personResponse 200) (Service.get visit.span id) := by
    simp only [respond, path, gets, respondGet, own, reading]
  have up : Backend.isDown { b.under visit.conditions with cacheTime := visit.cacheTime } .storeGet
      = false := by
    simpa [Backend.isDown, Backend.under] using up
  have answered := Service.run_get up live visit.span
  rw [Visit.serve, asks, answering, Backend.run, Program.run_bind]
  rcases answered with answer | ⟨octets, p, held, decoded, answer⟩
  · rw [answer]
    cases found <;> exact .inl rfl
  · rw [answer]
    exact .inr ⟨p, ⟨visit.cacheTime, octets, later, held, decoded⟩, rfl⟩

/-- Whoever asks for a person after a request was given up, however far it had got, gets the person on
record, or that there is none. The one exception is a copy that the cache held before: either it was not on
record even then, or the request has changed the person on record and was given up before it cleared the
cache.
-/
theorem get_after_giving_up (calls : Nat) (span : Span) (fresh : Uuid) (request : Request) (b : Backend)
    (visits : List Visit) (orderly : ∀ visit ∈ visits, visit.IsOrderly b.cacheTime)
    : let left := (respondUntil calls span fresh request b).2
      let now := Visit.after visits left
      ∀ (last : Visit) (id : Uuid), last.request.method = "GET" → last.request.Names id →
        .storeGet ∉ last.conditions.outages → b.cacheTime ≤ last.cacheTime →
          ∃ found, now.table.get id = .ok found
            ∧ ((last.serve now).1 = recordResponse id found
              ∨ ∃ p, b.Caches b.cacheTime id p ∧ (last.serve now).1 = personResponse 200 p
                ∧ (b.table.get id ≠ .ok (some p)
                  ∨ request.Names id ∧ left.table.get id ≠ b.table.get id ∧ left.cache = b.cache)) := by
  intro left now last id gets names up later
  have stale : left.Current b.cacheTime fun id p => b.Caches b.cacheTime id p
      ∧ (b.table.get id ≠ .ok (some p)
        ∨ request.Names id ∧ left.table.get id ≠ b.table.get id ∧ left.cache = b.cache) := by
    have aftermath : Aftermath b request calls left := respond_leaves b span request calls
    -- of what the cache holds, the copies that are not on record are known to be stale
    have sorted {other : Uuid} {p : Person} (caches : b.Caches b.cacheTime other p)
        : b.table.get other = .ok (some p)
          ∨ b.Caches b.cacheTime other p ∧ b.table.get other ≠ .ok (some p) :=
      (Classical.em _).imp_right fun other => ⟨caches, other⟩
    cases aftermath with
    | current keeps =>
        refine keeps _ _ fun other p caches => ?_
        exact (sorted caches).imp_right (And.imp_right .inl)
    | change namesToo behind =>
        intro other p caches
        obtain ⟨before, same | ⟨rfl, cache, -⟩⟩ := behind.caches caches
        · rw [same]
          exact (sorted before).imp_right (And.imp_right .inl)
        · by_cases same : left.table.get other = b.table.get other
          · rw [same]
            exact (sorted before).imp_right (And.imp_right .inl)
          · exact .inr ⟨before, .inr ⟨namesToo, same, cache⟩⟩
  have current := Visit.after_current orderly stale
  have live := Store.Table.get_eq now.table id
  refine ⟨_, live, ?_⟩
  rcases serve_get now gets names up later live with answer | ⟨p, caches, answer⟩
  · exact .inl answer
  · rcases current id p caches with same | ⟨before, kept⟩
    · refine .inl (answer.trans ?_)
      rw [← Except.ok.inj (same.symm.trans live), recordResponse]
    · exact .inr ⟨p, before, answer, kept⟩

section Ada

/-- A request for the person with the nil identifier. -/
def nilRequest (method : String) (body : String := "") : Request where
  method := method
  target := ⟨Resource.personsPath ++ 0x2f :: Text.Utf8.ofString Uuid.nil.text, none⟩
  headers := [.ofText "content-type" "application/json"]
  body := Text.Utf8.ofString body

theorem nilRequest_names (method body : String) : (nilRequest method body).Names .nil := by
  have path : Resource.ofPath? (Resource.personsPath ++ 0x2f :: Text.Utf8.ofString Uuid.nil.text)
      = some (.person (Text.Utf8.ofString Uuid.nil.text)) := by
    decide +kernel
  exact ⟨_, path, by decide +kernel⟩

/-- Ada is not in the cache when her age is patched. The request is given up before it clears the cache, then
she is asked for twice, and is given as she was changed.
-/
theorem get_after_giving_up_uncached
    : let conditions : Conditions := { replies := fun _ => .unreachable }
      let b := Backend.holding Service.ada
      let patch := nilRequest "PATCH" "\x7b\"age\":37\x7d"
      let left := (respondUntil 2 defaultCacheSpan .nil patch b).2
      let visits := [Visit.mk (nilRequest "HEAD") conditions 1 defaultCacheSpan]
      let last := Visit.mk (nilRequest "GET") conditions 2 defaultCacheSpan
      (∀ visit ∈ visits, visit.IsOrderly b.cacheTime)
        ∧ (last.serve (Visit.after visits left)).1
          = personResponse 200 { Service.ada with age := some 37 } := by
  intro conditions b patch left visits last
  have orderly : ∀ visit ∈ visits, visit.IsOrderly b.cacheTime := by
    intro visit member
    obtain rfl := List.mem_singleton.mp member
    exact ⟨List.not_mem_nil, List.not_mem_nil, Nat.zero_le _⟩
  obtain ⟨found, live, answer⟩ := get_after_giving_up 2 defaultCacheSpan .nil patch b visits orderly last
    .nil rfl (nilRequest_names "GET" "") List.not_mem_nil (Nat.zero_le _)
  have changed : (Visit.after visits left).table.get .nil
      = .ok (some { Service.ada with age := some 37 }) := by
    decide +kernel
  obtain rfl := Except.ok.inj (live.symm.trans changed)
  rcases answer with answer | ⟨p, ⟨now, octets, -, held, -⟩, -⟩
  · exact ⟨orderly, answer⟩
  · cases held

/-- Ada is in the cache when her age is patched. The request is given up before it clears the cache, and she
is given as she was.
-/
theorem get_after_giving_up_stale
    : let conditions : Conditions := { replies := fun _ => .unreachable }
      let b : Backend :=
        { Backend.holding Service.ada with
          cache := ({} : Cache).set 0 (Service.cacheKey .nil) Service.ada.encode defaultCacheSpan }
      let given := respondUntil 2 defaultCacheSpan .nil
        (nilRequest "PATCH" "\x7b\"age\":37\x7d") b
      let last := Visit.mk (nilRequest "GET") conditions 0 defaultCacheSpan
      given.1.status = 408
        ∧ given.2.table.get .nil = .ok (some { Service.ada with age := some 37 })
        ∧ (last.serve given.2).1 = personResponse 200 Service.ada
        ∧ (last.serve given.2).1 ≠ recordResponse .nil (some { Service.ada with age := some 37 }) := by
  intro conditions b given last
  have answer : (last.serve given.2).1 = personResponse 200 Service.ada := by decide +kernel
  refine ⟨by decide +kernel, by decide +kernel, answer, ?_⟩
  rw [answer]
  decide +kernel

end Ada
end PersonRegistry.Web
