import PersonRegistry.Proofs.Service.Requests
import PersonRegistry.Proofs.Store.Lookups

/-! The service in front of a cache of any kind, and without a cache: how calls are answered, and how
requests are served one after another.
-/

namespace PersonRegistry.Service

open Inference (Reply Trait)
open Store (Table)
open Text (Octets)
open Time (Span)

-----------------------------------------------------------------------------------------
-- Caches of any kind
-----------------------------------------------------------------------------------------

inductive CacheCall
  | get (key : String)
  | set (key : String) (value : Octets) (span : Span)
  | delete (key : String)

/-- A cache of any kind. What it answers may depend on all calls made of it before, latest first, and
in any way: it may lose values over time, or fail now and then.
-/
structure AnyCache where
  get : (earlier : List CacheCall) → (key : String) → Except CacheError (Option Octets)
  set : (earlier : List CacheCall) → (key : String) → Octets → Span → Except CacheError Unit
  delete : (earlier : List CacheCall) → (key : String) → Except CacheError Unit

/-- A value was put under a key, and the key was not cleared since. So is the last value put there,
unless it was cleared; whether the call that put it failed makes no difference.
-/
def Standing (key : String) (value : Octets) : (earlier : List CacheCall) → Prop
  | [] => False
  | .get _ :: earlier => Standing key value earlier
  | .set other put _ :: earlier => (other = key ∧ put = value) ∨ Standing key value earlier
  | .delete other :: earlier => other ≠ key ∧ Standing key value earlier

/-- A value that reads as a person stands under its key, and clearing a key succeeds. Nothing is said of
values that do not read as a person, of misses, or of failures to get and set.
-/
structure AnyCache.Faithful (cache : AnyCache) : Prop where
  standing : ∀ earlier key value p, cache.get earlier key = .ok (some value) →
    Person.decode value = .ok p → Standing key value earlier
  clears : ∀ earlier key, cache.delete earlier key = .ok ()

-----------------------------------------------------------------------------------------
-- The cache in memory
-----------------------------------------------------------------------------------------

/-- The values held after all calls so far. The call that follows `n` others is made at `times n`. -/
def cacheAfter (times : Nat → Nat) : (earlier : List CacheCall) → Cache
  | [] => {}
  | .get _ :: earlier => cacheAfter times earlier
  | .set key value span :: earlier =>
      (cacheAfter times earlier).set (times earlier.length) key value span
  | .delete key :: earlier => (cacheAfter times earlier).delete key

/-- The cache in memory, which lets values expire. The calls to get and set whose numbers fail are not
answered, but may have had their effect.
-/
def memoryCache (times : Nat → Nat) (fails : Nat → Bool) : AnyCache where
  get earlier key :=
    if fails earlier.length then .error ⟨"cache.get"⟩
    else .ok ((cacheAfter times earlier).get (times earlier.length) key)
  set earlier _ _ _ := if fails earlier.length then .error ⟨"cache.set"⟩ else .ok ()
  delete _ _ := .ok ()

/-- What the cache in memory holds stands in it, by induction on the calls. -/
theorem standing_of_mem_cacheAfter (times : Nat → Nat) {earlier : List CacheCall} {entry : Cache.Entry}
    (holds : entry ∈ (cacheAfter times earlier).entries)
    : Standing entry.key entry.value earlier := by
  induction earlier with
  | nil => cases holds
  | cons call earlier ih =>
      cases call with
      | get _ => exact ih holds
      | set key value span =>
          rcases List.mem_cons.mp holds with rfl | kept
          · exact .inl ⟨rfl, rfl⟩
          · exact .inr (ih (List.mem_filter.mp kept).1)
      | delete key =>
          obtain ⟨kept, unlike⟩ := List.mem_filter.mp holds
          have unlike : entry.key ≠ key := of_decide_eq_true unlike
          exact ⟨unlike.symm, ih kept⟩

/-- The cache in memory is faithful, at whatever times it is called and whichever calls fail. -/
theorem memoryCache_faithful (times : Nat → Nat) (fails : Nat → Bool)
    : (memoryCache times fails).Faithful := by
  refine ⟨fun earlier key value p hit _ => ?_, fun _ _ => rfl⟩
  simp only [memoryCache] at hit
  split at hit
  next => cases hit
  next =>
    obtain ⟨entry, found, rfl⟩ := Option.map_eq_some_iff.mp (Except.ok.inj hit)
    have own := List.find?_some found
    simp only [Bool.and_eq_true, decide_eq_true_eq] at own
    exact own.1 ▸ standing_of_mem_cacheAfter times (List.mem_of_find?_eq_some found)

-----------------------------------------------------------------------------------------
-- Calls with a cache and without
-----------------------------------------------------------------------------------------

/-- The surroundings, with a cache that was called so far as listed, latest first. -/
structure Cached where
  backend : Backend
  earlier : List CacheCall := []

/-- Answers a call, from the cache if it is one of the cache. -/
def Cached.perform (cache : AnyCache) : (c : Call) → Cached → c.Answer × Cached
  | .cacheGet key, s => (cache.get s.earlier key, { s with earlier := .get key :: s.earlier })
  | .cacheSet key value span, s =>
      (cache.set s.earlier key value span, { s with earlier := .set key value span :: s.earlier })
  | .cacheDelete key, s =>
      (cache.delete s.earlier key, { s with earlier := .delete key :: s.earlier })
  | c, s => ((s.backend.perform c).1, { s with backend := (s.backend.perform c).2 })

/-- Answers a call where there is no cache: nothing is found in it, and nothing is put there. -/
def Backend.performUncached : (c : Call) → Backend → c.Answer × Backend
  | .cacheGet _, b => (.ok none, b)
  | .cacheSet .., b => (.ok (), b)
  | .cacheDelete _, b => (.ok (), b)
  | c, b => b.perform c

-----------------------------------------------------------------------------------------
-- Requests one after another
-----------------------------------------------------------------------------------------

/-- What surrounds a request apart from the table and the cache. -/
structure Conditions where
  replies : String → Trait → Reply
  outages : List Outage := []
  deadline : Span := 2000
  time : Nat := 0

def Backend.under (b : Backend) (conditions : Conditions) : Backend :=
  { b with
    replies := conditions.replies
    outages := conditions.outages
    deadline := conditions.deadline
    time := conditions.time }

/-- Persons can be read from the store, and nobody else deletes them meanwhile. -/
def Conditions.Undisturbed (conditions : Conditions) : Prop :=
  .storeGet ∉ conditions.outages ∧ .storeVanish ∉ conditions.outages

theorem Backend.up_under (b : Backend) {conditions : Conditions}
    (undisturbed : conditions.Undisturbed)
    : (b.under conditions).isDown .storeGet = false
      ∧ (b.under conditions).isDown .storeVanish = false := by
  simpa [Backend.isDown, Backend.under, Conditions.Undisturbed] using undisturbed

/-- A request and the conditions under which it is served. -/
structure Visit where
  request : Request
  conditions : Conditions
  span : Span := defaultCacheSpan

namespace Visit

def program (visit : Visit) : Program (Except Error Outcome) := programOf visit.span visit.request

def serve (cache : AnyCache) (visit : Visit) (s : Cached) : Except Error Outcome × Cached :=
  visit.program.run (Cached.perform cache) { s with backend := s.backend.under visit.conditions }

def serveUncached (visit : Visit) (b : Backend) : Except Error Outcome × Backend :=
  visit.program.run Backend.performUncached (b.under visit.conditions)

def serveAll (cache : AnyCache) : List Visit → Cached → List (Except Error Outcome) × Cached
  | [], s => ([], s)
  | visit :: later, s =>
      let (answer, s) := visit.serve cache s
      let (answers, s) := serveAll cache later s
      (answer :: answers, s)

def serveAllUncached : List Visit → Backend → List (Except Error Outcome) × Backend
  | [], b => ([], b)
  | visit :: later, b =>
      let (answer, b) := visit.serveUncached b
      let (answers, b) := serveAllUncached later b
      (answer :: answers, b)

end Visit

-----------------------------------------------------------------------------------------
-- Surroundings that differ in the number of calls
-----------------------------------------------------------------------------------------

/-- Two surroundings are alike if they differ in nothing but the number of calls of the store. -/
def Backend.Alike (left right : Backend) : Prop :=
  ∃ calls, right = { left with storeCalls := calls }

namespace Backend

variable {left right : Backend}

theorem Alike.refl (b : Backend) : b.Alike b := ⟨b.storeCalls, rfl⟩

theorem Alike.oneMore (alike : left.Alike right) : left.Alike right.counted := by
  obtain ⟨calls, rfl⟩ := alike
  exact ⟨calls + 1, rfl⟩

theorem Alike.under (alike : left.Alike right) (conditions : Conditions)
    : (left.under conditions).Alike (right.under conditions) := by
  obtain ⟨calls, rfl⟩ := alike
  exact ⟨calls, rfl⟩

/-- A call of the store is answered alike if what it does pays no attention to the number of calls. -/
theorem Alike.storeCall {α : Type} (alike : left.Alike right) (part : Outage)
    (act : Backend → Except Store.Error α × Backend)
    (same : ∀ left right : Backend, left.Alike right →
      (act left).1 = (act right).1 ∧ (act left).2.Alike (act right).2)
    : (left.storeCall part act).1 = (right.storeCall part act).1
      ∧ (left.storeCall part act).2.Alike (right.storeCall part act).2 := by
  obtain ⟨calls, rfl⟩ := alike
  have counted : left.counted.Alike (counted { left with storeCalls := calls }) :=
    ⟨calls + 1, rfl⟩
  cases down : left.isDown part with
  | true =>
      have downToo : isDown { left with storeCalls := calls } part = true := down
      rw [storeCall_down down, storeCall_down downToo]
      exact ⟨rfl, counted⟩
  | false =>
      have upToo : isDown { left with storeCalls := calls } part = false := down
      rw [storeCall_up down, storeCall_up upToo]
      exact same _ _ counted

/-- A message is published alike. -/
theorem Alike.publish (alike : left.Alike right) (message : Octets)
    : (left.publish message).1 = (right.publish message).1
      ∧ (left.publish message).2.Alike (right.publish message).2 := by
  obtain ⟨calls, rfl⟩ := alike
  have same : Backend.publish message { left with storeCalls := calls }
      = ((Backend.publish message left).1,
          { (Backend.publish message left).2 with storeCalls := calls }) := by
    by_cases down : left.outages.contains Outage.events = true
    · simp only [Backend.publish, Backend.isDown, down, if_true]
    · simp only [Backend.publish, Backend.isDown, down, if_false, Bool.false_eq_true]
  exact ⟨(congrArg Prod.fst same).symm, calls, congrArg Prod.snd same⟩

/-- A report is sent alike, or thrown away by both. -/
theorem Alike.report (alike : left.Alike right) (message : Octets)
    : (left.report message).1 = (right.report message).1
      ∧ (left.report message).2.Alike (right.report message).2 := by
  obtain ⟨calls, rfl⟩ := alike
  have same : Backend.report message { left with storeCalls := calls }
      = ((Backend.report message left).1,
          { (Backend.report message left).2 with storeCalls := calls }) := by
    by_cases down : left.outages.contains Outage.reports = true
    · cases kept : left.reports <;> simp only [Backend.report, kept, Backend.isDown, down, if_true]
    · cases kept : left.reports
        <;> simp only [Backend.report, kept, Backend.isDown, down, if_false, Bool.false_eq_true]
  exact ⟨(congrArg Prod.fst same).symm, calls, congrArg Prod.snd same⟩

/-- Calls are answered alike where there is no cache, by cases on the call. -/
theorem Alike.performUncached (alike : left.Alike right) (c : Call)
    : (left.performUncached c).1 = (right.performUncached c).1
      ∧ (left.performUncached c).2.Alike (right.performUncached c).2 := by
  cases c with
  | create p =>
      refine alike.storeCall .storeCreate (Backend.create p) ?_
      rintro left - ⟨calls, rfl⟩
      simp only [Backend.create, Backend.now]
      cases left.table.create (left.ids left.issued) (.ofMilliseconds left.time) p with
      | error e => exact ⟨rfl, calls, rfl⟩
      | ok stored => exact ⟨rfl, calls, rfl⟩
  | get id =>
      refine alike.storeCall .storeGet (fun b => (b.table.get id, b)) ?_
      rintro left - ⟨calls, rfl⟩
      exact ⟨rfl, calls, rfl⟩
  | list filter =>
      refine alike.storeCall .storeList (fun b => (b.table.list filter, b)) ?_
      rintro left - ⟨calls, rfl⟩
      exact ⟨rfl, calls, rfl⟩
  | update p =>
      refine alike.storeCall .storeUpdate (Backend.update p) ?_
      rintro left - ⟨calls, rfl⟩
      exact ⟨rfl, calls, rfl⟩
  | delete id =>
      refine alike.storeCall .storeDelete (Backend.delete id) ?_
      rintro left - ⟨calls, rfl⟩
      exact ⟨rfl, calls, rfl⟩
  | lookUp name =>
      obtain ⟨calls, rfl⟩ := alike
      exact ⟨rfl, calls, rfl⟩
  | cacheGet key => exact ⟨rfl, alike⟩
  | cacheSet key value span => exact ⟨rfl, alike⟩
  | cacheDelete key => exact ⟨rfl, alike⟩
  | publish message => exact alike.publish message
  | report message => exact alike.report message

theorem Alike.table (alike : left.Alike right) : right.table = left.table := by
  obtain ⟨calls, rfl⟩ := alike
  rfl

theorem Alike.isDown (alike : left.Alike right) (part : Outage)
    : right.isDown part = left.isDown part := by
  obtain ⟨calls, rfl⟩ := alike
  rfl

end Backend

/-- The call adds rows to the table at most, and has nothing to do with the cache. -/
def Call.Adds : Call → Prop
  | .lookUp _ | .create _ | .get _ | .list _ | .publish _ | .report _ => True
  | .update _ | .delete _ | .cacheGet _ | .cacheSet .. | .cacheDelete _ => False

namespace Backend

variable {b : Backend} {id : Uuid} {held p : Person}

/-- A live person stays as it is while rows are added at most, by cases on the call. -/
theorem get_perform_of_adds {c : Call} (adds : c.Adds) (live : b.table.get id = .ok (some held))
    : (b.perform c).2.table.get id = .ok (some held) := by
  cases c with
  | create p =>
      cases down : b.isDown .storeCreate with
      | true =>
          rw [show b.perform (.create p) = _ from storeCall_down down]
          exact live
      | false =>
          rw [show b.perform (.create p) = _ from storeCall_up down, Backend.create]
          split
          next => exact live
          next created =>
            rw [Table.get_create created live, if_neg (Table.ne_of_create created live)]
  | get other =>
      rw [table_perform (c := .get other) trivial]
      exact live
  | list filter =>
      rw [table_perform (c := .list filter) trivial]
      exact live
  | lookUp name => exact live
  | publish message =>
      rw [table_perform (c := .publish message) trivial]
      exact live
  | report message =>
      rw [table_perform (c := .report message) trivial]
      exact live
  | _ => exact adds.elim

/-- A write that succeeds changes the person it writes. -/
theorem perform_update (up : b.isDown .storeUpdate = false) (calm : b.isDown .storeVanish = false)
    : b.perform (.update p)
      = (.ok (b.table.update b.now p).1,
        { b.counted with table := (b.table.update b.now p).2 }) := by
  have calm : b.counted.isDown .storeVanish = false := calm
  refine (storeCall_up up).trans ?_
  cases written : p.id with
  | none =>
      simp only [Backend.update, written]
      rfl
  | some id =>
      simp only [Backend.update, written, calm, Bool.false_eq_true, if_false]
      rfl

theorem table_performUncached {c : Call} (reads : c.Reads)
    : (b.performUncached c).2.table = b.table := by
  cases c with
  | cacheGet _ => rfl
  | cacheSet _ _ _ => rfl
  | cacheDelete _ => rfl
  | _ => exact table_perform reads

theorem perform_create (up : b.isDown .storeCreate = false)
    : b.perform (.create p) = b.counted.create p :=
  storeCall_up up

theorem perform_delete (up : b.isDown .storeDelete = false)
    : b.perform (.delete id)
      = (.ok (b.table.delete b.now id).1,
        { b.counted with table := (b.table.delete b.now id).2 }) :=
  storeCall_up up

end Backend

-----------------------------------------------------------------------------------------
-- What requests leave on record
-----------------------------------------------------------------------------------------

/-- The person on record under an identifier once a request was answered, if `held` was there before. -/
def Request.leaves (id : Uuid) : Request → Except Error Outcome → (held : Option Person) → Option Person
  | .create _, .ok (.person p), held => if p.id = some id then some p else held
  | .update other _, .ok (.person p), held => if id = other then some p else held
  | .delete other, .ok _, held => if id = other then none else held
  | _, _, held => held

/-- The person that the answered requests left on record: the last one that was created or changed under
the identifier, unless it was deleted since.
-/
def Visit.lastWritten (id : Uuid) :
    List Visit → List (Except Error Outcome) → (held : Option Person) → Option Person
  | visit :: visits, answer :: answers, held =>
      lastWritten id visits answers (visit.request.leaves id answer held)
  | _, _, held => held

section Leaves

variable {b : Backend} {id other : Uuid} {held : Option Person}

/-- A program that reads at most leaves the table as it is, by induction on it. -/
theorem table_run_of_reads {α : Type} {program : Program α}
    (keeps : program.Keeps Call.Reads fun _ _ => True)
    : (program.run Backend.performUncached b).2.table = b.table := by
  induction program generalizing b with
  | done a => rfl
  | ask c next ih =>
      exact (ih _ (keeps.2 _ trivial)).trans (Backend.table_performUncached keeps.1)

theorem get_run_store (before : b.table.get id = .ok held) (p : Person)
    : ((store p).run Backend.performUncached b).2.table.get id
      = .ok (match ((store p).run Backend.performUncached b).1 with
        | .ok stored => if stored.id = some id then some stored else held
        | .error _ => held) := by
  rw [store, Program.run_ask]
  cases down : b.isDown .storeCreate with
  | true =>
      rw [show b.performUncached (.create p) = _ from Backend.storeCall_down down]
      exact before
  | false =>
      rw [show b.performUncached (.create p) = _ from Backend.perform_create down, Backend.create]
      cases created : b.counted.table.create (b.counted.ids b.counted.issued) b.counted.now p with
      | error e => exact before
      | ok result =>
          obtain ⟨stored, after⟩ := result
          have own : stored.id = some (b.counted.ids b.counted.issued) := Table.id_of_create created
          have published := Backend.table_performUncached (b := { b.counted with
            table := after, issued := b.counted.issued + 1 })
            (c := .publish (createdEvent stored)) trivial
          simp only [Program.run_ask, Program.run_done]
          rw [published, Table.get_create created before, own]
          simp only [Option.some.injEq, eq_comm]

/-- A new person is on record if the answer says so. -/
theorem get_run_create (before : b.table.get id = .ok held) (draft : Draft) (span : Span)
    : ((programOf span (.create draft)).run Backend.performUncached b).2.table.get id
      = .ok ((Request.create draft).leaves id
          ((programOf span (.create draft)).run Backend.performUncached b).1 held) := by
  simp only [programOf, Program.run_map, create]
  split
  next => exact before
  next =>
    have before : (b.performUncached (.lookUp draft.candidate.name)).2.table.get id = .ok held :=
      before
    rw [Program.run_ask]
    cases (b.performUncached (.lookUp draft.candidate.name)).1 with
    | error e => exact before
    | ok found =>
        simp only
        split
        next => exact before
        next =>
          rw [get_run_store before]
          cases ((store (found.apply draft.candidate)).run Backend.performUncached
            (b.performUncached (.lookUp draft.candidate.name)).2).1 <;> rfl

theorem get_run_writeBack (calm : b.isDown .storeVanish = false) {p : Person}
    (own : p.id = some other) (before : b.table.get id = .ok held)
    : ((writeBack other p).run Backend.performUncached b).2.table.get id
      = .ok (match ((writeBack other p).run Backend.performUncached b).1 with
        | .ok written => if id = other then some written else held
        | .error _ => held) := by
  rw [writeBack, Program.run_ask]
  cases down : b.isDown .storeUpdate with
  | true =>
      rw [show b.performUncached (.update p) = _ from Backend.storeCall_down down]
      exact before
  | false =>
      rw [show b.performUncached (.update p) = _ from Backend.perform_update down calm]
      cases updated : (b.table.update b.now p).1 with
      | none =>
          rw [Table.update_of_none updated]
          exact before
      | some written => exact Table.get_update own updated before

/-- A changed person is on record as the answer gives it. -/
theorem get_run_update (up : b.isDown .storeGet = false) (calm : b.isDown .storeVanish = false)
    (before : b.table.get id = .ok held) (patch : Patch) (span : Span)
    : ((programOf span (.update other patch)).run Backend.performUncached b).2.table.get id
      = .ok ((Request.update other patch).leaves id
          ((programOf span (.update other patch)).run Backend.performUncached b).1 held) := by
  have call : b.performUncached (.get other) = (b.table.get other, b.counted) :=
    Backend.perform_get up other
  simp only [programOf, Program.run_map, update, Program.run_ask]
  rw [call]
  cases live : b.table.get other with
  | error e => exact before
  | ok found =>
      cases found with
      | none => exact before
      | some person =>
          have own : (patch.apply person).id = person.id := rfl
          simp only
          split
          next => exact before
          next =>
            have after := get_run_writeBack (b := b.counted) calm
              (own.trans (Table.id_of_get live)) before
            rw [after]
            cases ((writeBack other (patch.apply person)).run Backend.performUncached
              b.counted).1 <;> rfl

/-- A deleted person is not on record any more. -/
theorem get_run_delete (before : b.table.get id = .ok held) (span : Span)
    : ((programOf span (.delete other)).run Backend.performUncached b).2.table.get id
      = .ok ((Request.delete other).leaves id
          ((programOf span (.delete other)).run Backend.performUncached b).1 held) := by
  simp only [programOf, Program.run_map, delete, Program.run_ask]
  cases down : b.isDown .storeDelete with
  | true =>
      rw [show b.performUncached (.delete other) = _ from Backend.storeCall_down down]
      exact before
  | false =>
      rw [show b.performUncached (.delete other) = _ from Backend.perform_delete down]
      cases deleted : (b.table.delete b.now other).1 with
      | false =>
          rw [Table.delete_of_false deleted]
          exact before
      | true => exact Table.get_delete before

/-- Without a cache every request leaves on record what its answer says, by cases on it. -/
theorem Visit.get_serveUncached (visit : Visit) (undisturbed : visit.conditions.Undisturbed)
    (before : b.table.get id = .ok held)
    : (visit.serveUncached b).2.table.get id
      = .ok (visit.request.leaves id (visit.serveUncached b).1 held) := by
  obtain ⟨request, conditions, span⟩ := visit
  obtain ⟨up, calm⟩ := b.up_under undisturbed
  have before : (b.under conditions).table.get id = .ok held := before
  cases request with
  | create draft => exact get_run_create before draft span
  | get other =>
      have kept : ((programOf span (.get other)).run Backend.performUncached
          (b.under conditions)).2.table = b.table := by
        rw [programOf, Program.run_map]
        exact table_run_of_reads (get_keeps trivial trivial fun _ => trivial)
      exact kept ▸ before
  | list filter =>
      have kept : ((programOf span (.list filter)).run Backend.performUncached
          (b.under conditions)).2.table = b.table := by
        rw [programOf, Program.run_map]
        exact table_run_of_reads (list_keeps trivial)
      exact kept ▸ before
  | update other patch => exact get_run_update up calm before patch span
  | delete other => exact get_run_delete before span

/-- So does a sequence of requests, by induction on it. -/
theorem Visit.get_serveAllUncached {visits : List Visit}
    (undisturbed : ∀ visit ∈ visits, visit.conditions.Undisturbed)
    (before : b.table.get id = .ok held)
    : (Visit.serveAllUncached visits b).2.table.get id
      = .ok (Visit.lastWritten id visits (Visit.serveAllUncached visits b).1 held) := by
  induction visits generalizing b held with
  | nil => exact before
  | cons visit later ih =>
      have after := visit.get_serveUncached (undisturbed visit (by simp)) before
      exact ih (fun other member => undisturbed other (by simp [member])) after

end Leaves
end PersonRegistry.Service
