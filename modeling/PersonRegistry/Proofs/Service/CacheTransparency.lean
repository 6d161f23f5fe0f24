import PersonRegistry.Proofs.Person.Coding
import PersonRegistry.Proofs.Service.Caching

/-! Requests that are served one after another are answered the same with a cache as without one. The
cache may fail, forget and garble, as long as it never gives a person under a key that was not put there
since the key was cleared.
-/

namespace PersonRegistry.Service

open Store (Table)
open Time (Span)

-----------------------------------------------------------------------------------------
-- Served with a cache and without
-----------------------------------------------------------------------------------------

/-- Surroundings with a cache and others without one are alike, and every person that stands in the cache
is live as it stands there. One identifier may be excepted, while its person is being changed.
-/
structure Agree (excepted : Option Uuid) (s : Cached) (b : Backend) : Prop where
  alike : s.backend.Alike b
  current : ∀ id value, excepted ≠ some id → Standing (cacheKey id) value s.earlier →
    ∃ p, s.backend.table.get id = .ok (some p) ∧ value = p.encode

/-- A program gives with a cache what another gives without, and both surroundings are in agreement
afterwards.
-/
structure SameRun (cache : AnyCache) (left right : Program α) (s : Cached) (b : Backend) : Prop where
  answer : (left.run (Cached.perform cache) s).1 = (right.run Backend.performUncached b).1
  agree : Agree none (left.run (Cached.perform cache) s).2 (right.run Backend.performUncached b).2

variable {α β : Type} {cache : AnyCache} {s : Cached} {b : Backend} {id : Uuid}

namespace Agree

variable {excepted : Option Uuid}

/-- A call that only adds rows is answered alike, and changes no live person. -/
theorem adds {c : Call} (agree : Agree none s b) (adds : c.Adds)
    : (s.perform cache c).1 = (b.performUncached c).1
      ∧ Agree none (s.perform cache c).2 (b.performUncached c).2 := by
  have direct : s.perform cache c
        = ((s.backend.perform c).1, { s with backend := (s.backend.perform c).2 })
      ∧ s.backend.performUncached c = s.backend.perform c := by
    cases c <;> first | exact ⟨rfl, rfl⟩ | exact adds.elim
  have answers := agree.alike.performUncached c
  rw [direct.2] at answers
  rw [direct.1]
  refine ⟨answers.1, answers.2, fun id value _ standing => ?_⟩
  obtain ⟨p, live, written⟩ := agree.current id value (by simp) standing
  exact ⟨p, Backend.get_perform_of_adds adds live, written⟩

/-- One more call of the store makes no difference on either side. -/
theorem counted (agree : Agree none s b)
    : Agree none { s with backend := s.backend.counted } b.counted := by
  obtain ⟨calls, rfl⟩ := agree.alike
  exact ⟨⟨calls + 1, rfl⟩, agree.current⟩

/-- The store is read alike with a cache and without. -/
theorem perform_get (agree : Agree none s b) (up : b.isDown .storeGet = false) (id : Uuid)
    : s.perform cache (.get id) = (b.table.get id, { s with backend := s.backend.counted }) := by
  have upToo : s.backend.isDown .storeGet = false := (agree.alike.isDown _).symm.trans up
  rw [agree.alike.table]
  exact congrArg (fun r => (r.1, { s with backend := r.2 })) (Backend.perform_get upToo id)

/-- Reading the cache changes nothing that stands in it. -/
theorem read (agree : Agree excepted s b) (key : String)
    : Agree excepted { s with earlier := .get key :: s.earlier } b :=
  ⟨agree.alike, fun id value other standing => agree.current id value other standing⟩

theorem cached (agree : Agree none s b) {p : Person}
    (live : s.backend.table.get id = .ok (some p)) (span : Span)
    : Agree none { s with earlier := .set (cacheKey id) p.encode span :: s.earlier } b := by
  refine ⟨agree.alike, fun other value apart standing => ?_⟩
  rcases standing with ⟨same, written⟩ | standing
  · exact ⟨p, Uuid.text_injective same ▸ live, written.symm⟩
  · exact agree.current other value apart standing

theorem cleared (agree : Agree (some id) s b)
    : Agree none { s with earlier := .delete (cacheKey id) :: s.earlier } b := by
  refine ⟨agree.alike, fun other value _ ⟨apart, standing⟩ => ?_⟩
  refine agree.current other value (fun same => apart ?_) standing
  rw [Option.some.inj same]

theorem changed {left right : Backend} (agree : Agree none s b) (alike : left.Alike right)
    (others : ∀ other, other ≠ id → left.table.get other = s.backend.table.get other)
    : Agree (some id) { s with backend := left } right := by
  refine ⟨alike, fun other value apart standing => ?_⟩
  have unlike : other ≠ id := fun same => apart (by rw [same])
  rw [others other unlike]
  exact agree.current other value (by simp) standing

end Agree

namespace SameRun

/-- A call is followed by what its answer on either side leads to. -/
theorem ask {c : Call} {left right : c.Answer → Program α}
    (rest : SameRun cache (left (s.perform cache c).1) (right (b.performUncached c).1)
      (s.perform cache c).2 (b.performUncached c).2)
    : SameRun cache (.ask c left) (.ask c right) s b :=
  ⟨rest.answer, rest.agree⟩

theorem map {left right : Program α} (same : SameRun cache left right s b) (f : α → β)
    : SameRun cache (f <$> left) (f <$> right) s b := by
  constructor
  · rw [Program.run_map, Program.run_map, same.answer]
  · rw [Program.run_map, Program.run_map]
    exact same.agree

/-- A program whose calls only add rows runs alike, by induction on it. -/
theorem of_adds {program : Program α} (keeps : program.Keeps Call.Adds fun _ _ => True)
    (agree : Agree none s b)
    : SameRun cache program program s b := by
  induction program generalizing s b with
  | done a => exact ⟨rfl, agree⟩
  | ask c next ih =>
      obtain ⟨answer, agree⟩ : _ ∧ Agree none (s.perform cache c).2 _ := agree.adds keeps.1
      refine .ask ?_
      rw [answer]
      exact ih _ (keeps.2 _ trivial) agree

end SameRun

-----------------------------------------------------------------------------------------
-- Creating
-----------------------------------------------------------------------------------------

/-- A new person is stored once its traits were looked up, and nothing is done with the cache. -/
theorem create_adds (draft : Draft) : (create draft).Keeps Call.Adds fun _ _ => True := by
  rw [create]
  split
  next => trivial
  next =>
    refine ⟨trivial, fun found _ => ?_⟩
    cases found with
    | error e => trivial
    | ok found =>
        simp only
        split
        next => trivial
        next =>
          refine ⟨trivial, fun stored _ => ?_⟩
          cases stored with
          | error e => trivial
          | ok stored => exact ⟨trivial, fun _ _ => trivial⟩

-----------------------------------------------------------------------------------------
-- Reading a person
-----------------------------------------------------------------------------------------

/-- The person on record, or that there is none. -/
def onRecord (id : Uuid) : Option Person → Except Error Person
  | some p => .ok p
  | none => .error (.notFound id)

/-- Without a cache a person is read from the store. -/
theorem run_getStored_uncached {found : Option Person} (up : b.isDown .storeGet = false)
    (live : b.table.get id = .ok found) (span : Span)
    : (getStored span id).run Backend.performUncached b = (onRecord id found, b.counted) := by
  have call : b.performUncached (.get id) = (b.table.get id, b.counted) := Backend.perform_get up id
  rw [getStored, Program.run_ask, call, live]
  cases found <;> rfl

namespace SameRun

/-- A person that the cache does not give is read from the store, and cached then. -/
theorem getStored (agree : Agree none s b) (up : b.isDown .storeGet = false) (span : Span)
    (id : Uuid)
    : SameRun cache (getStored span id) (getStored span id) s b := by
  have call : b.performUncached (.get id) = (b.table.get id, b.counted) := Backend.perform_get up id
  refine .ask ?_
  rw [agree.perform_get up, call]
  cases live : b.table.get id with
  | error e => exact ⟨rfl, agree.counted⟩
  | ok found =>
      cases found with
      | none => exact ⟨rfl, agree.counted⟩
      | some p => exact ⟨rfl, agree.counted.cached (agree.alike.table ▸ live) span⟩

/-- What stands in a faithful cache is current, and was written as it is read back. -/
theorem get (agree : Agree none s b) (faithful : cache.Faithful)
    (up : b.isDown .storeGet = false) (span : Span) (id : Uuid)
    : SameRun cache (get span id) (get span id) s b := by
  have looked := agree.read (cacheKey id)
  have missed : SameRun cache (Service.getStored span id) (Service.getStored span id) _ b :=
    .getStored looked up span id
  have call : s.perform cache (.cacheGet (cacheKey id))
      = (cache.get s.earlier (cacheKey id),
        { s with earlier := .get (cacheKey id) :: s.earlier }) := rfl
  have uncached : b.performUncached (.cacheGet (cacheKey id)) = (.ok none, b) := rfl
  refine .ask ?_
  rw [call, uncached]
  cases hit : cache.get s.earlier (cacheKey id) with
  | error e => exact missed
  | ok found =>
      cases found with
      | none => exact missed
      | some octets =>
          cases decoded : Person.decode octets with
          -- what cannot be read counts as not cached
          | error e =>
              simp only [decoded]
              exact missed
          | ok p =>
              have standing := faithful.standing _ _ _ _ hit decoded
              obtain ⟨held, live, rfl⟩ := agree.current id octets (by simp) standing
              rw [Person.decode_encode] at decoded
              obtain rfl := Except.ok.inj decoded
              have stored := run_getStored_uncached up (agree.alike.table ▸ live) span
              simp only [Person.decode_encode]
              constructor
              · rw [stored]
                rfl
              · rw [stored]
                exact ⟨looked.alike.oneMore, looked.current⟩

end SameRun

-----------------------------------------------------------------------------------------
-- Changing a person
-----------------------------------------------------------------------------------------

namespace SameRun

/-- A faithful cache is clear of the changed person before the request is answered. -/
theorem clearing (agree : Agree (some id) s b) (faithful : cache.Faithful) (result : α)
    : SameRun cache (clearing id result) (clearing id result) s b := by
  have call : s.perform cache (.cacheDelete (cacheKey id))
      = (.ok (), { s with earlier := .delete (cacheKey id) :: s.earlier }) :=
    congrArg (fun answer => (answer, _)) (faithful.clears _ _)
  refine .ask ?_
  rw [call]
  exact ⟨rfl, agree.cleared⟩

/-- Writing a person back changes no other person, and the person itself is cleared from the cache. -/
theorem writeBack (agree : Agree none s b) (faithful : cache.Faithful)
    (calm : b.isDown .storeVanish = false) {p : Person} (own : p.id = some id)
    : SameRun cache (writeBack id p) (writeBack id p) s b := by
  obtain ⟨answer, alike⟩ := agree.alike.performUncached (.update p)
  have direct : s.perform cache (.update p)
      = ((s.backend.performUncached (.update p)).1,
        { s with backend := (s.backend.performUncached (.update p)).2 }) := rfl
  refine .ask ?_
  rw [direct, ← answer]
  cases down : s.backend.isDown .storeUpdate with
  | true =>
      have call : s.backend.performUncached (.update p)
          = (.error (.down Outage.storeUpdate.text), s.backend.counted) :=
        Backend.storeCall_down down
      rw [call] at alike ⊢
      exact ⟨rfl, alike, agree.current⟩
  | false =>
      have calm : s.backend.isDown .storeVanish = false := (agree.alike.isDown _).symm.trans calm
      have call : s.backend.performUncached (.update p)
          = (.ok (s.backend.table.update s.backend.now p).1, { s.backend.counted with
              table := (s.backend.table.update s.backend.now p).2 }) :=
        Backend.perform_update down calm
      rw [call] at alike ⊢
      cases found : (s.backend.table.update s.backend.now p).1 with
      | none =>
          rw [Table.update_of_none found] at alike ⊢
          exact ⟨rfl, alike, agree.current⟩
      | some updated =>
          -- from here to the clearing, the cache may give the person as it was
          refine clearing (agree.changed alike fun other unlike => ?_) faithful updated
          rw [Table.get_update own found (Table.get_eq _ other), if_neg unlike, Table.get_eq]

/-- A changed person keeps its identifier, and is written back under it. -/
theorem update (agree : Agree none s b) (faithful : cache.Faithful)
    (up : b.isDown .storeGet = false) (calm : b.isDown .storeVanish = false) (id : Uuid)
    (patch : Patch)
    : SameRun cache (update id patch) (update id patch) s b := by
  have call : b.performUncached (.get id) = (b.table.get id, b.counted) := Backend.perform_get up id
  refine .ask ?_
  rw [agree.perform_get up, call]
  cases live : b.table.get id with
  | error e => exact ⟨rfl, agree.counted⟩
  | ok found =>
      cases found with
      | none => exact ⟨rfl, agree.counted⟩
      | some held =>
          have own : (patch.apply held).id = held.id := rfl
          simp only
          split
          next => exact ⟨rfl, agree.counted⟩
          next => exact writeBack agree.counted faithful calm (own.trans (Table.id_of_get live))

theorem delete (agree : Agree none s b) (faithful : cache.Faithful) (id : Uuid)
    : SameRun cache (delete id) (delete id) s b := by
  obtain ⟨answer, alike⟩ := agree.alike.performUncached (.delete id)
  have direct : s.perform cache (.delete id)
      = ((s.backend.performUncached (.delete id)).1,
        { s with backend := (s.backend.performUncached (.delete id)).2 }) := rfl
  refine .ask ?_
  rw [direct, ← answer]
  cases down : s.backend.isDown .storeDelete with
  | true =>
      have call : s.backend.performUncached (.delete id)
          = (.error (.down Outage.storeDelete.text), s.backend.counted) :=
        Backend.storeCall_down down
      rw [call] at alike ⊢
      exact ⟨rfl, alike, agree.current⟩
  | false =>
      have call : s.backend.performUncached (.delete id)
          = (.ok (s.backend.table.delete s.backend.now id).1, { s.backend.counted with
              table := (s.backend.table.delete s.backend.now id).2 }) :=
        Backend.perform_delete down
      rw [call] at alike ⊢
      cases found : (s.backend.table.delete s.backend.now id).1 with
      | false =>
          rw [Table.delete_of_false found] at alike ⊢
          exact ⟨rfl, alike, agree.current⟩
      | true =>
          refine clearing (agree.changed alike fun other unlike => ?_) faithful ()
          rw [Table.get_delete (Table.get_eq _ other), if_neg unlike, Table.get_eq]

end SameRun

-----------------------------------------------------------------------------------------
-- Whole sequences of requests
-----------------------------------------------------------------------------------------

namespace SameRun

theorem request (agree : Agree none s b) (faithful : cache.Faithful)
    (up : b.isDown .storeGet = false) (calm : b.isDown .storeVanish = false) (span : Span)
    (request : Request)
    : SameRun cache (programOf span request) (programOf span request) s b := by
  cases request with
  | create draft => exact (of_adds (create_adds draft) agree).map _
  | get id => exact (get agree faithful up span id).map _
  | list filter => exact (of_adds (list_keeps trivial) agree).map _
  | update id patch => exact (update agree faithful up calm id patch).map _
  | delete id => exact (delete agree faithful id).map _

end SameRun

namespace Agree

/-- One request under its conditions keeps both sides in agreement. -/
theorem serve (agree : Agree none s b) (faithful : cache.Faithful) (visit : Visit)
    (undisturbed : visit.conditions.Undisturbed)
    : (visit.serve cache s).1 = (visit.serveUncached b).1
      ∧ Agree none (visit.serve cache s).2 (visit.serveUncached b).2 := by
  obtain ⟨up, calm⟩ := b.up_under undisturbed
  have start : Agree none { s with backend := s.backend.under visit.conditions }
      (b.under visit.conditions) := ⟨agree.alike.under visit.conditions, agree.current⟩
  obtain ⟨answer, agree⟩ := SameRun.request start faithful up calm visit.span visit.request
  exact ⟨answer, agree⟩

/-- So does a sequence of requests, by induction on it. -/
theorem serveAll (agree : Agree none s b) (faithful : cache.Faithful) {visits : List Visit}
    (undisturbed : ∀ visit ∈ visits, visit.conditions.Undisturbed)
    : (Visit.serveAll cache visits s).1 = (Visit.serveAllUncached visits b).1
      ∧ Agree none (Visit.serveAll cache visits s).2 (Visit.serveAllUncached visits b).2 := by
  induction visits generalizing s b with
  | nil => exact ⟨rfl, agree⟩
  | cons visit later ih =>
      obtain ⟨answer, agree⟩ := agree.serve faithful visit (undisturbed visit (by simp))
      obtain ⟨answers, agree⟩ := ih agree fun other member => undisturbed other (by simp [member])
      simp only [Visit.serveAll, Visit.serveAllUncached]
      exact ⟨by rw [answer, answers], agree⟩

end Agree

/-- A person that is asked for without a cache is the one on record. -/
theorem serveUncached_get {found : Option Person} {conditions : Conditions}
    (undisturbed : conditions.Undisturbed) (live : b.table.get id = .ok found) (span : Span)
    : ((Visit.mk (.get id) conditions span).serveUncached b).1
      = (onRecord id found).map .person := by
  have stored : (getStored span id).run Backend.performUncached (b.under conditions)
      = (onRecord id found, (b.under conditions).counted) :=
    run_getStored_uncached (b.up_under undisturbed).1 live span
  rw [Visit.serveUncached, Visit.program, programOf, Program.run_map]
  exact congrArg (fun r => r.1.map Outcome.person) stored

/-- Whatever a faithful cache does, requests are answered as without a cache, and leave the same table.
A person that is asked for is the one on record: the last one that a request created or changed under its
identifier and none deleted since.
-/
theorem answers_eq_uncached (cache : AnyCache) (faithful : cache.Faithful) (start : Backend)
    (visits : List Visit) (undisturbed : ∀ visit ∈ visits, visit.conditions.Undisturbed)
    : let cached := Visit.serveAll cache visits { backend := start }
      let uncached := Visit.serveAllUncached visits start
      cached.1 = uncached.1 ∧ cached.2.backend.table = uncached.2.table
        ∧ ∀ id held conditions span, start.table.get id = .ok held → conditions.Undisturbed →
            cached.2.backend.table.get id = .ok (Visit.lastWritten id visits cached.1 held)
              ∧ ((Visit.mk (.get id) conditions span).serve cache cached.2).1
                = (onRecord id (Visit.lastWritten id visits cached.1 held)).map .person := by
  intro cached uncached
  have start : Agree none { backend := start } start :=
    ⟨.refl start, fun _ _ _ standing => standing.elim⟩
  obtain ⟨answers, agree⟩ := start.serveAll faithful undisturbed
  have table : uncached.2.table = cached.2.backend.table := agree.alike.table
  refine ⟨answers, table.symm, fun id held conditions span before calm => ?_⟩
  have live : uncached.2.table.get id = .ok (Visit.lastWritten id visits cached.1 held) := by
    rw [show cached.1 = uncached.1 from answers]
    exact Visit.get_serveAllUncached undisturbed before
  refine ⟨table ▸ live, ?_⟩
  exact (agree.serve faithful _ calm).1.trans (serveUncached_get calm live span)

/-- A failing cache in memory, while one person is read, changed, read again, deleted and asked for. -/
theorem answers_eq_uncached_memoryCache
    : let conditions : Conditions :=
        { replies := fun _ => .unreachable, outages := [.storeList, .events] }
      let start : Backend :=
        { table := ⟨[.ofPerson .nil (.ofMilliseconds 0) { name := "Ada", surname := "Byron" }]⟩
          replies := fun _ => .unreachable
          ids := fun _ => .nil }
      let requests : List Request := [.get .nil, .get .nil, .update .nil { age := some 36 },
        .get .nil, .delete .nil, .get .nil]
      let visits := requests.map fun request => Visit.mk request conditions defaultCacheSpan
      let cache := memoryCache (· * 1000) (· = 3)
      cache.Faithful ∧ (∀ visit ∈ visits, visit.conditions.Undisturbed)
        ∧ (Visit.serveAll cache visits { backend := start }).1
          = (Visit.serveAllUncached visits start).1 := by
  intro conditions start requests visits cache
  have undisturbed : ∀ visit ∈ visits, visit.conditions.Undisturbed := by
    intro visit member
    obtain ⟨request, -, rfl⟩ := List.mem_map.mp member
    have reads : .storeGet ∉ [Outage.storeList, Outage.events] := by decide
    have vanishes : .storeVanish ∉ [Outage.storeList, Outage.events] := by decide
    exact ⟨reads, vanishes⟩
  have faithful : cache.Faithful := memoryCache_faithful _ _
  exact ⟨faithful, undisturbed, (answers_eq_uncached cache faithful start visits undisturbed).1⟩

end PersonRegistry.Service
