import PersonRegistry.Proofs.Service.CacheTransparency
import PersonRegistry.Proofs.Service.Effects
import PersonRegistry.Proofs.Service.Schedules

/-! What a change of a person leaves behind if it fails, where any call of the store and of the cache may
fail: nothing that a later request could tell, unless it was only the cache that could not be cleared.
Then the change stands.
-/

namespace PersonRegistry.Service

open Store (Table)
open Time (Span)

variable {α β : Type} {cache : AnyCache} {s : Cached} {id : Uuid}

-----------------------------------------------------------------------------------------
-- Surroundings that later requests cannot tell apart
-----------------------------------------------------------------------------------------

/-- The cache was called in the same way, and nothing but the number of calls of the store differs. -/
structure Cached.Alike (left right : Cached) : Prop where
  backend : left.backend.Alike right.backend
  earlier : right.earlier = left.earlier

namespace Cached.Alike

variable {left right : Cached}

theorem counted (s : Cached) : s.Alike { s with backend := s.backend.counted } :=
  ⟨⟨s.backend.storeCalls + 1, rfl⟩, rfl⟩

theorem trans {last : Cached} (first : left.Alike right) (second : right.Alike last)
    : left.Alike last := by
  obtain ⟨⟨calls, same⟩, earlier⟩ := first
  obtain ⟨⟨later, sameThen⟩, earlierThen⟩ := second
  exact ⟨⟨later, by rw [sameThen, same]⟩, earlierThen.trans earlier⟩

/-- Every call is answered alike, by cases on who answers it. -/
theorem perform (cache : AnyCache) (alike : left.Alike right) (c : Call)
    : (left.perform cache c).1 = (right.perform cache c).1
      ∧ (left.perform cache c).2.Alike (right.perform cache c).2 := by
  obtain ⟨backend, earlier⟩ := alike
  have answered := backend.perform c
  cases c with
  | cacheGet _ | cacheSet _ _ _ | cacheDelete _ =>
      simp only [Cached.perform, earlier]
      exact ⟨trivial, backend, rfl⟩
  | _ => exact ⟨answered.1, answered.2, earlier⟩

/-- A program gives the same, by induction on it. -/
theorem run (alike : left.Alike right) (program : Program α)
    : (program.run (Cached.perform cache) left).1 = (program.run (Cached.perform cache) right).1
      ∧ (program.run (Cached.perform cache) left).2.Alike
        (program.run (Cached.perform cache) right).2 := by
  induction program generalizing left right with
  | done a => exact ⟨rfl, alike⟩
  | ask c next ih =>
      obtain ⟨answer, alike⟩ := alike.perform cache c
      have runs := ih (right.perform cache c).1 alike
      rw [Program.run_ask, Program.run_ask, answer]
      exact runs

theorem serve (cache : AnyCache) (alike : left.Alike right) (visit : Visit)
    : (visit.serve cache left).1 = (visit.serve cache right).1
      ∧ (visit.serve cache left).2.Alike (visit.serve cache right).2 := by
  have start : Cached.Alike { left with backend := left.backend.under visit.conditions }
      { right with backend := right.backend.under visit.conditions } :=
    ⟨alike.backend.under visit.conditions, alike.earlier⟩
  exact start.run visit.program

/-- Requests one after another are answered alike, by induction on them. -/
theorem serveAll (alike : left.Alike right) (visits : List Visit)
    : (Visit.serveAll cache visits left).1 = (Visit.serveAll cache visits right).1 := by
  induction visits generalizing left right with
  | nil => rfl
  | cons visit later ih =>
      obtain ⟨answer, alike⟩ := alike.serve cache visit
      simp only [Visit.serveAll]
      rw [answer, ih alike]

end Cached.Alike

-----------------------------------------------------------------------------------------
-- How a change ends
-----------------------------------------------------------------------------------------

/-- How a change of a person ends, next to what it comes to without a cache: it is refused before anything
is written, or what was written stands, whether or not the cache could be cleared of the person then.
-/
inductive ChangeEnds (cache : AnyCache) (s : Cached) (id : Uuid)
    (uncached : Except Error α × Backend) : Except Error α × Cached → Prop
  | refused {e : Error} {after : Cached} (other : ∀ c, e ≠ .cache c) (alike : s.Alike after)
      : ChangeEnds cache s id uncached (.error e, after)
  | uncleared {a : α} {b : Backend} {c : CacheError} (written : uncached = (.ok a, b))
      (fails : cache.delete s.earlier (cacheKey id) = .error c)
      : ChangeEnds cache s id uncached (.error (.cache c), ⟨b, .delete (cacheKey id) :: s.earlier⟩)
  | done {a : α} {b : Backend} (written : uncached = (.ok a, b))
      : ChangeEnds cache s id uncached (.ok a, ⟨b, .delete (cacheKey id) :: s.earlier⟩)

namespace ChangeEnds

/-- Whatever a change had to count before it began in earnest, it ends in the same way. -/
theorem of_alike {now : Cached} {uncached : Except Error α × Backend} {ended : Except Error α × Cached}
    (alike : s.Alike now) (ends : ChangeEnds cache now id uncached ended)
    : ChangeEnds cache s id uncached ended := by
  cases ends with
  | refused other then_ => exact .refused other (alike.trans then_)
  | uncleared written fails =>
      rw [alike.earlier] at fails ⊢
      exact .uncleared written fails
  | done written =>
      rw [alike.earlier]
      exact .done written

theorem map (f : α → β) {uncached : Except Error α × Backend} {ended : Except Error α × Cached}
    (ends : ChangeEnds cache s id uncached ended)
    : ChangeEnds cache s id (uncached.1.map f, uncached.2) (ended.1.map f, ended.2) := by
  cases ends with
  | refused other alike => exact .refused other alike
  | uncleared written fails =>
      rw [written]
      exact .uncleared rfl fails
  | done written =>
      rw [written]
      exact .done rfl

/-- Nothing but the clearing is left to fail once a change is written. -/
theorem clearing (id : Uuid) (a : α) (b : Backend)
    : ChangeEnds cache s id (.ok a, b)
        ((clearing id a).run (Cached.perform cache) { s with backend := b }) := by
  have call : Cached.perform cache (.cacheDelete (cacheKey id)) { s with backend := b }
      = (cache.delete s.earlier (cacheKey id), ⟨b, .delete (cacheKey id) :: s.earlier⟩) := rfl
  rw [Service.clearing, Program.run_ask, call]
  cases cleared : cache.delete s.earlier (cacheKey id) with
  | error c => exact .uncleared rfl cleared
  | ok _ => exact .done rfl

theorem writeBack (calm : s.backend.isDown .storeVanish = false) (p : Person)
    : ChangeEnds cache s id ((writeBack id p).run Backend.performUncached s.backend)
        ((writeBack id p).run (Cached.perform cache) s) := by
  have direct : s.perform cache (.update p)
      = ((s.backend.performUncached (.update p)).1,
        { s with backend := (s.backend.performUncached (.update p)).2 }) := rfl
  rw [Service.writeBack, Program.run_ask, Program.run_ask, direct]
  cases down : s.backend.isDown .storeUpdate with
  | true =>
      rw [show s.backend.performUncached (.update p) = _ from Backend.storeCall_down down]
      exact .refused (by simp) (.counted s)
  | false =>
      rw [show s.backend.performUncached (.update p) = _ from Backend.perform_update down calm]
      cases found : (s.backend.table.update s.backend.now p).1 with
      | none =>
          rw [Table.update_of_none found]
          exact .refused (by simp) (.counted s)
      | some updated => exact clearing id updated _

/-- A person that cannot be read, is not there or would be faulty is left alone. -/
theorem update (calm : s.backend.isDown .storeVanish = false) (id : Uuid) (patch : Patch)
    : ChangeEnds cache s id ((update id patch).run Backend.performUncached s.backend)
        ((update id patch).run (Cached.perform cache) s) := by
  have direct : s.perform cache (.get id)
      = ((s.backend.performUncached (.get id)).1,
        { s with backend := (s.backend.performUncached (.get id)).2 }) := rfl
  rw [Service.update, Program.run_ask, Program.run_ask, direct]
  cases down : s.backend.isDown .storeGet with
  | true =>
      rw [show s.backend.performUncached (.get id) = _ from Backend.storeCall_down down]
      exact .refused (by simp) (.counted s)
  | false =>
      rw [show s.backend.performUncached (.get id) = _ from Backend.perform_get down id]
      rcases s.backend.table.get id with e | none | held
      · exact .refused (by simp) (.counted s)
      · exact .refused (by simp) (.counted s)
      · simp only
        split
        next => exact .refused (by simp) (.counted s)
        next =>
          have calm : s.backend.counted.isDown .storeVanish = false := calm
          exact .of_alike (.counted s) (writeBack (s := { s with backend := s.backend.counted }) calm _)

theorem delete (id : Uuid)
    : ChangeEnds cache s id ((delete id).run Backend.performUncached s.backend)
        ((delete id).run (Cached.perform cache) s) := by
  have direct : s.perform cache (.delete id)
      = ((s.backend.performUncached (.delete id)).1,
        { s with backend := (s.backend.performUncached (.delete id)).2 }) := rfl
  rw [Service.delete, Program.run_ask, Program.run_ask, direct]
  cases down : s.backend.isDown .storeDelete with
  | true =>
      rw [show s.backend.performUncached (.delete id) = _ from Backend.storeCall_down down]
      exact .refused (by simp) (.counted s)
  | false =>
      rw [show s.backend.performUncached (.delete id) = _ from Backend.perform_delete down]
      cases found : (s.backend.table.delete s.backend.now id).1 with
      | false =>
          rw [Table.delete_of_false found]
          exact .refused (by simp) (.counted s)
      | true => exact clearing id () _

end ChangeEnds

/-- The request changes the person or deletes it. -/
def Request.Changes (id : Uuid) : Request → Prop
  | .update other _ => other = id
  | .delete other => other = id
  | _ => False

theorem request_changeEnds (calm : s.backend.isDown .storeVanish = false) (span : Span)
    {request : Request} (changes : request.Changes id)
    : ChangeEnds cache s id ((programOf span request).run Backend.performUncached s.backend)
        ((programOf span request).run (Cached.perform cache) s) := by
  cases request with
  | update other patch =>
      obtain rfl : other = id := changes
      simp only [programOf, Program.run_map]
      exact (ChangeEnds.update calm other patch).map _
  | delete other =>
      obtain rfl : other = id := changes
      simp only [programOf, Program.run_map]
      exact (ChangeEnds.delete other).map _
  | _ => exact changes.elim

-----------------------------------------------------------------------------------------
-- Reading afterwards
-----------------------------------------------------------------------------------------

/-- Persons are listed from the store, whatever the cache holds. -/
theorem serve_list (cache : AnyCache) (s : Cached) (filter : Filter) (conditions : Conditions)
    (span : Span)
    : ((Visit.mk (.list filter) conditions span).serve cache s).1
      = ((Visit.mk (.list filter) conditions span).serveUncached s.backend).1 := by
  simp only [Visit.serve, Visit.serveUncached, Visit.program, programOf, Program.run_map, list]
  split
  next => rfl
  next =>
    have direct : Cached.perform cache (.list filter) { s with backend := s.backend.under conditions }
        = (((s.backend.under conditions).performUncached (.list filter)).1,
          { s with backend := ((s.backend.under conditions).performUncached (.list filter)).2 }) := rfl
    rw [Program.run_ask, Program.run_ask, direct]
    cases ((s.backend.under conditions).performUncached (.list filter)).1 <;> rfl

/-- A person that the cache does not give is answered from the store. -/
theorem run_getStored_cached (cache : AnyCache) (s : Cached) (span : Span) (id : Uuid)
    : ((getStored span id).run (Cached.perform cache) s).1
      = ((getStored span id).run Backend.performUncached s.backend).1 := by
  have direct : s.perform cache (.get id)
      = ((s.backend.performUncached (.get id)).1,
        { s with backend := (s.backend.performUncached (.get id)).2 }) := rfl
  rw [getStored, Program.run_ask, Program.run_ask, direct]
  rcases (s.backend.performUncached (.get id)).1 with e | none | p <;> rfl

/-- A person is answered from the store, or as the cache gives it. -/
theorem serve_get (cache : AnyCache) (s : Cached) (id : Uuid) (conditions : Conditions) (span : Span)
    : ((Visit.mk (.get id) conditions span).serve cache s).1
        = ((Visit.mk (.get id) conditions span).serveUncached s.backend).1
      ∨ ∃ octets p, cache.get s.earlier (cacheKey id) = .ok (some octets)
        ∧ Person.decode octets = .ok p
        ∧ ((Visit.mk (.get id) conditions span).serve cache s).1 = .ok (.person p) := by
  simp only [Visit.serve, Visit.serveUncached, Visit.program, programOf, Program.run_map, get,
    Program.run_ask, Backend.performUncached, Cached.perform]
  cases hit : cache.get s.earlier (cacheKey id) with
  | error e => exact .inl (congrArg _ (run_getStored_cached cache _ span id))
  | ok found =>
      cases found with
      | none => exact .inl (congrArg _ (run_getStored_cached cache _ span id))
      | some octets =>
          cases decoded : Person.decode octets with
          | error e =>
              simp only [decoded]
              exact .inl (congrArg _ (run_getStored_cached cache _ span id))
          | ok p =>
              simp only [decoded]
              exact .inr ⟨octets, p, rfl, decoded, rfl⟩

/-- A change of a person that fails leaves the store as it was, and all later requests are answered as if
it had not been made. The one exception is a cache that could not be cleared of the person, which is
reported: then the change stands as without a cache. Later lists have it, and so has whoever asks for the
person, unless the cache still gives a copy.
-/
theorem failed_change (cache : AnyCache) (s : Cached) (calm : s.backend.isDown .storeVanish = false)
    (span : Span) {request : Request} {id : Uuid} (changes : request.Changes id)
    : let ended := (programOf span request).run (Cached.perform cache) s
      let uncached := (programOf span request).run Backend.performUncached s.backend
      ∀ e, ended.1 = .error e →
        ((∀ c, e ≠ .cache c) →
            ended.2.backend.table = s.backend.table
              ∧ ∀ visits, (Visit.serveAll cache visits ended.2).1 = (Visit.serveAll cache visits s).1)
          ∧ ∀ c, e = .cache c →
            cache.delete s.earlier (cacheKey id) = .error c
              ∧ (∃ outcome, uncached.1 = .ok outcome)
              ∧ ended.2.backend.table = uncached.2.table
              ∧ (∀ filter conditions later,
                  let visit := Visit.mk (.list filter) conditions later
                  (visit.serve cache ended.2).1 = (visit.serveUncached uncached.2).1)
              ∧ ∀ other conditions later,
                  let visit := Visit.mk (.get other) conditions later
                  (visit.serve cache ended.2).1 = (visit.serveUncached uncached.2).1
                    ∨ ∃ octets p, cache.get ended.2.earlier (cacheKey other) = .ok (some octets)
                      ∧ Person.decode octets = .ok p
                      ∧ (visit.serve cache ended.2).1 = .ok (.person p) := by
  intro ended uncached e error
  have ends : ChangeEnds cache s id uncached ended := request_changeEnds calm span changes
  clear_value ended uncached
  cases ends with
  | refused other alike =>
      obtain rfl := Except.error.inj error
      exact ⟨fun _ => ⟨alike.backend.table, fun visits => (alike.serveAll visits).symm⟩,
        fun c same => absurd same (other c)⟩
  | uncleared written fails =>
      obtain rfl := Except.error.inj error
      refine ⟨fun other => absurd rfl (other _), fun c same => ?_⟩
      obtain rfl := Error.cache.inj same
      subst written
      exact ⟨fails, ⟨_, rfl⟩, rfl, fun filter conditions later => serve_list cache _ filter conditions later,
        fun other conditions later => serve_get cache _ other conditions later⟩
  | done => cases error

/-- Ada is not to be that old, and stays as she is; a cache that fails all calls makes no difference. -/
theorem failed_change_invalid
    : let cache : AnyCache :=
        { get := fun _ _ => .error ⟨"cache.get"⟩
          set := fun _ _ _ _ => .error ⟨"cache.set"⟩
          delete := fun _ _ => .error ⟨"cache.delete"⟩ }
      let s : Cached := { backend := .holding ada }
      let request : Request := .update .nil { age := some 200 }
      let ended := (programOf defaultCacheSpan request).run (Cached.perform cache) s
      s.backend.isDown .storeVanish = false ∧ request.Changes .nil
        ∧ ended.1 = .error (.invalid [(.age, .outside 1 (ageBound - 1))])
        ∧ ended.2.backend.table = s.backend.table
        ∧ ∀ visits, (Visit.serveAll cache visits ended.2).1 = (Visit.serveAll cache visits s).1 := by
  intro cache s request ended
  have calm : s.backend.isDown .storeVanish = false := rfl
  have changes : request.Changes .nil := rfl
  have error : ended.1 = .error (.invalid [(.age, .outside 1 (ageBound - 1))]) := by decide +kernel
  obtain ⟨unchanged, -⟩ := failed_change cache s calm defaultCacheSpan changes _ error
  exact ⟨calm, changes, error, unchanged fun _ => Error.noConfusion⟩

/-- A cache that fails to be cleared has the request fail, but the change stands. -/
theorem change_stands_uncleared
    : let cache : AnyCache :=
        { memoryCache (fun _ => 0) (fun _ => false) with
          delete := fun _ _ => .error ⟨"cache.delete"⟩ }
      let s : Cached := { backend := .holding ada }
      let request : Request := .update .nil { age := some 37 }
      let ended := (programOf defaultCacheSpan request).run (Cached.perform cache) s
      let list := Visit.mk (.list {}) { replies := fun _ => .unreachable } defaultCacheSpan
      ended.1 = .error (.cache ⟨"cache.delete"⟩)
        ∧ ended.2.backend.table ≠ s.backend.table
        ∧ (list.serve cache s).1 = .ok (.persons [ada])
        ∧ (list.serve cache ended.2).1 = .ok (.persons [{ ada with age := some 37 }]) := by
  intro cache s request ended list
  have changed : ended.2.backend.table.get .nil = .ok (some { ada with age := some 37 }) := by
    decide +kernel
  have before : s.backend.table.get .nil = .ok (some ada) := by decide +kernel
  have apart : ended.2.backend.table ≠ s.backend.table := by
    intro same
    rw [same, before] at changed
    exact absurd changed (by decide)
  exact ⟨by decide +kernel, apart, by decide +kernel, by decide +kernel⟩

end PersonRegistry.Service
