import PersonRegistry.Proofs.Service.CacheTransparency
import PersonRegistry.Proofs.Service.Schedules

/-! What stands in the cache once requests that overlapped are over: the person on record, unless one that
was read before a change was cached after it.
-/

namespace PersonRegistry

open Text (Octets)
open Time (Span)

-----------------------------------------------------------------------------------------
-- The cache in memory
-----------------------------------------------------------------------------------------

namespace Cache

/-- Clearing a key leaves what is held under the others. -/
theorem get_delete (cache : Cache) (now : Nat) (key other : String)
    : (cache.delete key).get now other = if key = other then none else cache.get now other := by
  rw [get, get, delete, List.find?_filter]
  by_cases same : key = other
  · subst same
    rw [if_pos rfl, Option.map_eq_none_iff, List.find?_eq_none]
    intro entry _ found
    simp only [Bool.and_eq_true, decide_eq_true_eq] at found
    exact found.1 found.2.1
  · rw [if_neg same]
    refine congrArg (Option.map _) (congrArg (List.find? · cache.entries) (funext fun entry => ?_))
    by_cases own : entry.key = other
    · simp [own, Ne.symm same]
    · simp [own]

/-- A value is held under its key for its span, and what is held under other keys stays. -/
theorem get_set (cache : Cache) (start now : Nat) (key other : String) (value : Octets) (span : Span)
    : (cache.set start key value span).get now other
      = if key = other then (if now < start + span then some value else none)
        else cache.get now other := by
  have cleared := get_delete cache now key other
  rw [get] at cleared ⊢
  rw [set, List.find?_cons]
  by_cases same : key = other
  · subst same
    rw [if_pos rfl] at cleared ⊢
    by_cases lasts : now < start + span
    · simp [lasts]
    · simpa [lasts] using cleared
  · rw [if_neg same] at cleared ⊢
    simpa [same] using cleared

end Cache

namespace Service

-----------------------------------------------------------------------------------------
-- Calls of the cache
-----------------------------------------------------------------------------------------

/-- What a call put into the cache. -/
def Answered.cached? : Answered → Option (String × Octets)
  | ⟨.cacheSet key value _, .ok _⟩ => some (key, value)
  | _ => none

/-- The key that a call cleared from the cache. -/
def Answered.cleared? : Answered → Option String
  | ⟨.cacheDelete key, .ok _⟩ => some key
  | _ => none

namespace Backend

variable {b : Backend} {c : Call}

/-- The cache is the same, and the time by which its values expire. -/
def SameCache (before after : Backend) : Prop :=
  after.cache = before.cache ∧ after.cacheTime = before.cacheTime

/-- Only calls of the cache that put or clear something change it, by cases on the call. -/
theorem perform_sameCache (puts : ∀ key value span, c ≠ .cacheSet key value span)
    (clears : ∀ key, c ≠ .cacheDelete key)
    : SameCache b (b.perform c).2 := by
  cases c with
  | cacheSet key value span => exact absurd rfl (puts key value span)
  | cacheDelete key => exact absurd rfl (clears key)
  | create p =>
      refine storeCall_cases (motive := fun r => b.SameCache r.2) ⟨rfl, rfl⟩ ?_
      rw [Backend.create]
      split <;> exact ⟨rfl, rfl⟩
  | get _ | list _ | update _ | delete _ =>
      exact storeCall_cases (motive := fun r => b.SameCache r.2) ⟨rfl, rfl⟩ ⟨rfl, rfl⟩
  | lookUp name => exact ⟨rfl, rfl⟩
  | cacheGet key => exact cacheCall_cases (motive := fun r => b.SameCache r.2) ⟨rfl, rfl⟩ ⟨rfl, rfl⟩
  | publish message =>
      rw [perform, publish]
      split <;> exact ⟨rfl, rfl⟩
  | report message =>
      rw [perform, report]
      split
      next => exact ⟨rfl, rfl⟩
      next => split <;> exact ⟨rfl, rfl⟩

theorem cacheTime_perform (b : Backend) (c : Call) : (b.perform c).2.cacheTime = b.cacheTime := by
  cases c with
  | cacheSet _ _ _ | cacheDelete _ =>
      exact cacheCall_cases (motive := fun r => r.2.cacheTime = b.cacheTime) rfl rfl
  | _ => exact (perform_sameCache (by rintro _ _ _ ⟨⟩) (by rintro _ ⟨⟩)).2

section Cached

variable {key : String} {value : Octets}

theorem cached_perform_set {own : String} {put : Octets} {span : Span}
    (held : (b.perform (.cacheSet own put span)).2.cache.get b.cacheTime key = some value)
    : Answered.cached? ⟨.cacheSet own put span, (b.perform (.cacheSet own put span)).1⟩ = some (key, value)
      ∨ b.cache.get b.cacheTime key = some value := by
  rw [perform, cacheCall] at held ⊢
  split at held
  next => exact .inr held
  next up =>
    rw [if_neg up]
    rw [Cache.get_set] at held
    split at held
    next same =>
      split at held
      next => exact .inl (by rw [Answered.cached?, same, Option.some.inj held])
      next => cases held
    next => exact .inr held

theorem cached_perform_delete {own : String}
    (held : (b.perform (.cacheDelete own)).2.cache.get b.cacheTime key = some value)
    : Answered.cleared? ⟨.cacheDelete own, (b.perform (.cacheDelete own)).1⟩ ≠ some key
      ∧ b.cache.get b.cacheTime key = some value := by
  rw [perform, cacheCall] at held ⊢
  split at held
  next down =>
    rw [if_pos down]
    exact ⟨by rintro ⟨⟩, held⟩
  next up =>
    rw [if_neg up]
    rw [Cache.get_delete] at held
    split at held
    next => cases held
    next apart => exact ⟨fun same => apart (Option.some.inj same), held⟩

/-- What is in the cache after a call was put there by it, or was there before and not cleared by it. -/
theorem cached_perform (held : (b.perform c).2.cache.get b.cacheTime key = some value)
    : Answered.cached? ⟨c, (b.perform c).1⟩ = some (key, value)
      ∨ Answered.cleared? ⟨c, (b.perform c).1⟩ ≠ some key
        ∧ b.cache.get b.cacheTime key = some value := by
  have other (puts : ∀ key value span, c ≠ .cacheSet key value span)
      (clears : ∀ key, c ≠ .cacheDelete key)
      : Answered.cleared? ⟨c, (b.perform c).1⟩ ≠ some key
        ∧ b.cache.get b.cacheTime key = some value := by
    refine ⟨?_, (perform_sameCache puts clears).1 ▸ held⟩
    cases c with
    | cacheDelete key => exact absurd rfl (clears key)
    | _ => rintro ⟨⟩
  cases c with
  | cacheSet own put span => exact (cached_perform_set held).imp_right fun before => ⟨by rintro ⟨⟩, before⟩
  | cacheDelete own => exact .inr (cached_perform_delete held)
  | _ => exact .inr (other (by rintro _ _ _ ⟨⟩) (by rintro _ ⟨⟩))

end Cached

end Backend

-----------------------------------------------------------------------------------------
-- How one request leaves the cache
-----------------------------------------------------------------------------------------

/-- The calls of one request, latest first. It caches none but persons that it read from the store, and
clears each person that it changed right after.
-/
inductive Tidy : (calls : List Answered) → Prop
  | nil : Tidy []
  | other {a : Answered} {calls : List Answered} (keeps : a.cached? = none)
      (leaves : a.change? = none) (tidy : Tidy calls)
    : Tidy (a :: calls)
  | caching {id : Uuid} {p : Person} {span : Span} {answer : Except CacheError Unit}
      {read : Answered} {calls : List Answered} (reads : read.read? = some (id, some p))
      (among : read ∈ calls) (tidy : Tidy calls)
    : Tidy (⟨.cacheSet (cacheKey id) p.encode span, answer⟩ :: calls)
  | changing {id : Uuid} {changed : Option Person} {change clearing : Answered}
      {calls : List Answered} (clears : clearing.cleared? = some (cacheKey id))
      (changes : change.change? = some (id, changed)) (tidy : Tidy calls)
    : Tidy (clearing :: change :: calls)

namespace Answered

variable {done : Answered} {key : String}

theorem cached?_of_cleared? (clears : done.cleared? = some key) : done.cached? = none := by
  obtain ⟨c, answer⟩ := done
  cases c with
  | cacheDelete _ => rfl
  | _ => cases clears

theorem change?_of_cleared? (clears : done.cleared? = some key) : done.change? = none := by
  obtain ⟨c, answer⟩ := done
  cases c with
  | cacheDelete _ => rfl
  | _ => cases clears

theorem cached?_of_change? {change : Uuid × Option Person} (changes : done.change? = some change)
    : done.cached? = none := by
  obtain ⟨c, answer⟩ := done
  cases c with
  | cacheSet _ _ _ => cases changes
  | _ => rfl

theorem changes_iff {id : Uuid} : done.changes id = true ↔ ∃ p, done.change? = some (id, p) := by
  simp [changes, Option.any_eq_true]

end Answered

namespace Tidy

variable {calls later earlier : List Answered} {a : Answered}

/-- What was cached had been read before, by induction on the calls. -/
theorem caches (tidy : Tidy calls) (split : calls = later ++ a :: earlier) {key : String}
    {value : Octets} (cached : a.cached? = some (key, value))
    : ∃ id p read, key = cacheKey id ∧ value = p.encode ∧ read ∈ earlier
        ∧ read.read? = some (id, some p) := by
  induction tidy generalizing later with
  | nil => simp at split
  | other keeps _ _ ih =>
      rcases List.cons_eq_append_iff.mp split with ⟨rfl, same⟩ | ⟨rest, rfl, within⟩
      · obtain ⟨rfl, rfl⟩ := List.cons.inj same
        rw [keeps] at cached
        cases cached
      · exact ih within
  | @caching id p _ answer read _ reads among _ ih =>
      rcases List.cons_eq_append_iff.mp split with ⟨rfl, same⟩ | ⟨rest, rfl, within⟩
      · obtain ⟨rfl, rfl⟩ := List.cons.inj same
        cases answer with
        | error e => cases cached
        | ok _ =>
            cases cached
            exact ⟨id, p, read, rfl, rfl, among, reads⟩
      · exact ih within
  | changing clears changes _ ih =>
      rcases List.cons_eq_append_iff.mp split with ⟨rfl, same⟩ | ⟨rest, rfl, within⟩
      · obtain ⟨rfl, rfl⟩ := List.cons.inj same
        rw [Answered.cached?_of_cleared? clears] at cached
        cases cached
      rcases List.cons_eq_append_iff.mp within with ⟨rfl, same⟩ | ⟨rest, rfl, inside⟩
      · obtain ⟨rfl, rfl⟩ := List.cons.inj same
        rw [Answered.cached?_of_change? changes] at cached
        cases cached
      · exact ih inside

/-- What was changed was cleared afterwards, by induction on the calls. -/
theorem clears (tidy : Tidy calls) (split : calls = later ++ a :: earlier) {id : Uuid}
    (changed : a.changes id = true)
    : ∃ clearing ∈ later, clearing.cleared? = some (cacheKey id) := by
  obtain ⟨p, changed⟩ := Answered.changes_iff.mp changed
  induction tidy generalizing later with
  | nil => simp at split
  | other _ leaves _ ih =>
      rcases List.cons_eq_append_iff.mp split with ⟨rfl, same⟩ | ⟨rest, rfl, within⟩
      · obtain ⟨rfl, rfl⟩ := List.cons.inj same
        rw [leaves] at changed
        cases changed
      · exact (ih within).imp fun _ cleared => ⟨List.mem_cons_of_mem _ cleared.1, cleared.2⟩
  | caching _ _ _ ih =>
      rcases List.cons_eq_append_iff.mp split with ⟨rfl, same⟩ | ⟨rest, rfl, within⟩
      · obtain ⟨rfl, rfl⟩ := List.cons.inj same
        cases changed
      · exact (ih within).imp fun _ cleared => ⟨List.mem_cons_of_mem _ cleared.1, cleared.2⟩
  | @changing _ _ _ clearing _ clears changes _ ih =>
      rcases List.cons_eq_append_iff.mp split with ⟨rfl, same⟩ | ⟨rest, rfl, within⟩
      · obtain ⟨rfl, rfl⟩ := List.cons.inj same
        rw [Answered.change?_of_cleared? clears] at changed
        cases changed
      rcases List.cons_eq_append_iff.mp within with ⟨rfl, same⟩ | ⟨rest, rfl, inside⟩
      · obtain ⟨rfl, rfl⟩ := List.cons.inj same
        obtain ⟨rfl, -⟩ := Prod.mk.inj (Option.some.inj (changes.symm.trans changed))
        exact ⟨clearing, List.mem_singleton_self _, clears⟩
      · refine (ih inside).imp fun _ cleared => ⟨?_, cleared.2⟩
        exact List.mem_cons_of_mem _ (List.mem_cons_of_mem _ cleared.1)

end Tidy

/-- The cache clears what it is told to, and the store gives the persons that it is asked for. -/
def Call.AnsweredReliably : (c : Call) → c.Answer → Prop
  | .cacheDelete _, answer => answer = .ok ()
  | c, answer => c.AnsweredById answer

section Requests

variable {id : Uuid} {span : Span}

theorem get_tidy : (get span id).EndsAs Call.AnsweredReliably (fun calls _ => Tidy calls) [] := by
  have stored {calls : List Answered} (tidy : Tidy calls)
      : (getStored span id).EndsAs Call.AnsweredReliably (fun calls _ => Tidy calls) calls := by
    intro found _
    rcases found with e | none | p
    · exact .other rfl rfl tidy
    · exact .other rfl rfl tidy
    · exact fun answer _ => .caching rfl List.mem_cons_self (.other rfl rfl tidy)
  intro answer _
  have looked : Tidy [⟨.cacheGet (cacheKey id), answer⟩] := .other rfl rfl .nil
  rcases answer with e | none | octets
  · exact stored looked
  · exact stored looked
  · cases read : Person.decode octets with
    | error e =>
        simp only [read]
        exact stored looked
    | ok p =>
        simp only [read]
        exact looked

theorem list_tidy (filter : Filter)
    : (list filter).EndsAs Call.AnsweredReliably (fun calls _ => Tidy calls) [] := by
  rw [list]
  split
  next => exact .nil
  next =>
    intro found _
    cases found <;> exact .other rfl rfl .nil

/-- A change ends by clearing the person from the cache. -/
theorem clearing_tidy {α : Type} {changed : Option Person} {change : Answered}
    {calls : List Answered} (result : α) (changes : change.change? = some (id, changed))
    (tidy : Tidy calls)
    : (clearing id result).EndsAs Call.AnsweredReliably (fun calls _ => Tidy calls)
        (change :: calls) := by
  rintro _ rfl
  exact .changing rfl changes tidy

theorem update_tidy (patch : Patch)
    : (update id patch).EndsAs Call.AnsweredReliably (fun calls _ => Tidy calls) [] := by
  intro found own
  rcases found with e | none | held
  · exact .other rfl rfl .nil
  · exact .other rfl rfl .nil
  · have read : Tidy [⟨.get id, .ok (some held)⟩] := .other rfl rfl .nil
    simp only
    split
    next => exact read
    next =>
      intro written _
      rcases written with e | none | written
      · exact .other rfl rfl read
      · exact .other rfl rfl read
      · have same : (patch.apply held).id = some id := own
        have changes : Answered.change? ⟨.update (patch.apply held), .ok (some written)⟩
            = some (id, some (patch.apply held)) := by
          rw [Answered.change?, same, Option.map_some]
        exact clearing_tidy written changes read

theorem delete_tidy
    : (delete id).EndsAs Call.AnsweredReliably (fun calls _ => Tidy calls) [] := by
  intro deleted _
  rcases deleted with e | none | _
  · exact .other rfl rfl .nil
  · exact .other rfl rfl .nil
  · exact clearing_tidy () rfl .nil

end Requests

/-- Nobody is created by a request. Who is created is not cleared from the cache. -/
def Request.CreatesNobody : Request → Prop
  | .create _ => False
  | _ => True

theorem Request.CreatesNobody.tidy {request : Request} (creates : request.CreatesNobody) (span : Span)
    : (programOf span request).EndsAs Call.AnsweredReliably (fun calls _ => Tidy calls) [] := by
  cases request with
  | create _ => exact creates.elim
  | get id => exact get_tidy.map _
  | list filter => exact (list_tidy filter).map _
  | update id patch => exact (update_tidy patch).map _
  | delete id => exact delete_tidy.map _

-----------------------------------------------------------------------------------------
-- What holds of all schedules
-----------------------------------------------------------------------------------------

/-- The cache is never down for clearing, and nobody else deletes a person. -/
structure Move.IsReliable (m : Move) : Prop where
  calm : m.IsCalm
  clears : .cacheDelete ∉ m.outages

/-- A value was put under a key and not cleared since. -/
def PutSince (key : String) (value : Octets) (past : List Event) : Prop :=
  ∃ later i caching earlier, past = later ++ (i, caching) :: earlier
    ∧ caching.cached? = some (key, value) ∧ ∀ event ∈ later, event.2.cleared? ≠ some key

theorem PutSince.cons {key : String} {value : Octets} {past : List Event} {event : Event}
    (put : PutSince key value past) (keeps : event.2.cleared? ≠ some key)
    : PutSince key value (event :: past) := by
  obtain ⟨later, i, caching, earlier, rfl, cached, since⟩ := put
  exact ⟨event :: later, i, caching, earlier, rfl, cached, List.forall_mem_cons.mpr ⟨keeps, since⟩⟩

/-- What the cache holds was put there by the calls so far, or was there from the start. -/
structure Overlap.CacheTold (start : Backend) (s : Overlap) : Prop where
  time : s.backend.cacheTime = start.cacheTime
  held : ∀ key value, s.backend.cache.get start.cacheTime key = some value →
    PutSince key value s.past ∨ (start.cache.get start.cacheTime key = some value
      ∧ ∀ event ∈ s.past, event.2.cleared? ≠ some key)

section Requests

variable {start : Backend} {span : Span} {requests : List Request} {schedule : List Move}

theorem cacheTold_after : ((Overlap.begun start span requests).after schedule).CacheTold start := by
  refine Overlap.after_induction ⟨rfl, fun key value held => .inr ⟨held, by simp [Overlap.begun]⟩⟩ ?_
  intro s m c next _ _ told
  refine ⟨(Backend.cacheTime_perform _ c).trans told.time, fun key value held => ?_⟩
  have same : (s.backend.facing m.outages).cacheTime = start.cacheTime := told.time
  rcases Backend.cached_perform (same ▸ held) with put | ⟨keeps, before⟩
  · exact .inl ⟨[], m.program, _, s.past, rfl, put, by simp⟩
  · rcases told.held key value (same ▸ before) with put | ⟨old, since⟩
    · exact .inl (put.cons keeps)
    · exact .inr ⟨old, List.forall_mem_cons.mpr ⟨keeps, since⟩⟩

theorem Move.IsReliable.answers {m : Move} (reliable : m.IsReliable) (b : Backend) (c : Call)
    : c.AnsweredReliably ((b.facing m.outages).perform c).1 := by
  cases c with
  | cacheDelete key =>
      have up : ¬(b.facing m.outages).isDown .cacheDelete = true := by
        simpa [Backend.isDown, Backend.facing] using reliable.clears
      rw [Backend.perform, Backend.cacheCall, if_neg up]
      exact rfl
  | get id => exact (b.facing m.outages).perform_answeredById (.get id)
  | _ => trivial

/-- Once all requests are over, the calls of each are tidy. -/
theorem tidy_after (stored : ∀ request ∈ requests, request.CreatesNobody)
    (reliable : ∀ m ∈ schedule, m.IsReliable)
    (ended : ((Overlap.begun start span requests).after schedule).IsOver) (i : Nat)
    : Tidy (ownCalls i ((Overlap.begun start span requests).after schedule).past) := by
  obtain ⟨size, among⟩ := @programs_after start span requests schedule
  have kept : ((Overlap.begun start span requests).after schedule).KeptTo Call.AnsweredReliably
      fun _ calls _ => Tidy calls :=
    kept_after (fun _ _ asked => (stored _ (List.mem_of_getElem? asked)).tidy span)
      fun m among => (reliable m among).answers
  by_cases known : i < requests.length
  · obtain ⟨-, -, tidy⟩ := kept.ended ended (size ▸ known)
    exact tidy
  · have none_ : ownCalls i ((Overlap.begun start span requests).after schedule).past = [] :=
      List.eq_nil_iff_forall_not_mem.mpr fun done made => known (among _ (mem_ownCalls.mp made))
    exact none_ ▸ .nil

end Requests

-----------------------------------------------------------------------------------------
-- What the cache holds in the end
-----------------------------------------------------------------------------------------

/-- Each value that the cache holds for a person is that person as it is on record. -/
def Backend.Coherent (b : Backend) : Prop :=
  ∀ id octets, b.cache.get b.cacheTime (cacheKey id) = some octets →
    ∃ p, b.table.get id = .ok (some p) ∧ octets = p.encode

/-- A person was read before a change of it, and cached once that change had cleared the cache, which was
not cleared of the person again.
-/
def CachedLate (id : Uuid) (p : Person) (past : List Event) : Prop :=
  ∃ later reader caching earlier, past = later ++ (reader, caching) :: earlier
    ∧ caching.cached? = some (cacheKey id, p.encode)
    ∧ (∀ event ∈ later, event.2.cleared? ≠ some (cacheKey id))
    ∧ ∃ writer clearing change read,
        [(writer, clearing), (writer, change), (reader, read)].Sublist earlier
          ∧ clearing.cleared? = some (cacheKey id) ∧ change.changes id = true
          ∧ read.read? = some (id, some p)

section Past

variable {past later earlier : List Event} {i : Nat} {a : Answered} {id : Uuid}

/-- Nothing is changed by what puts a value into the cache. -/
theorem Answered.not_changes_of_cached? {key : String} {value : Octets}
    (cached : a.cached? = some (key, value)) : a.changes id = false := by
  refine Bool.eq_false_iff.mpr fun changes => ?_
  obtain ⟨p, changed⟩ := changes_iff.mp changes
  rw [cached?_of_change? changed] at cached
  cases cached

theorem tidy_split (tidy : ∀ i, Tidy (ownCalls i past)) (split : past = later ++ (i, a) :: earlier)
    : Tidy (ownCalls i later ++ a :: ownCalls i earlier) := by
  rw [← ownCalls_own, ← ownCalls_append, ← split]
  exact tidy i

/-- Whoever changed a person cleared it from the cache later on. -/
theorem exists_clearing (tidy : ∀ i, Tidy (ownCalls i past))
    (split : past = later ++ (i, a) :: earlier) (changes : a.changes id = true)
    : ∃ clearing, (i, clearing) ∈ later ∧ clearing.cleared? = some (cacheKey id) := by
  obtain ⟨clearing, own, clears⟩ := (tidy_split tidy split).clears rfl changes
  exact ⟨clearing, mem_ownCalls.mp own, clears⟩

/-- As long as a person is not cleared from the cache, it is not changed either. -/
theorem not_changes_of_not_cleared (tidy : ∀ i, Tidy (ownCalls i past)) (split : past = later ++ earlier)
    (kept : ∀ event ∈ later, event.2.cleared? ≠ some (cacheKey id))
    : ∀ event ∈ later, event.2.changes id = false := by
  intro event member
  refine Bool.eq_false_iff.mpr fun changes => ?_
  obtain ⟨last, rest, rfl⟩ := List.append_of_mem member
  obtain ⟨clearing, among, clears⟩ :=
    exists_clearing tidy (split.trans (List.append_assoc last _ _)) changes
  exact kept _ (List.mem_append_left _ among) clears

/-- Whoever changed a person before it was cached, and was not cleared since, had cleared it by then. -/
theorem exists_clearing_before {reader writer : Nat} {caching change : Answered} {octets : Octets}
    {after before : List Event} (tidy : ∀ i, Tidy (ownCalls i past))
    (split : past = later ++ (reader, caching) :: (after ++ (writer, change) :: before))
    (cached : caching.cached? = some (cacheKey id, octets))
    (since : ∀ event ∈ later, event.2.cleared? ≠ some (cacheKey id))
    (changes : change.changes id = true)
    : ∃ clearing, (writer, clearing) ∈ after ∧ clearing.cleared? = some (cacheKey id) := by
  have changedThen : past = (later ++ (reader, caching) :: after) ++ (writer, change) :: before := by
    simp [split]
  obtain ⟨clearing, among, clears⟩ := exists_clearing tidy changedThen changes
  refine ⟨clearing, ?_, clears⟩
  rcases List.mem_append.mp among with late | among
  · exact absurd clears (since _ late)
  rcases List.mem_cons.mp among with same | among
  · rw [← (Prod.mk.inj same).2, Answered.cached?_of_cleared? clears] at cached
    cases cached
  · exact among

/-- What was cached and not cleared since had been read before, and is on record if nobody changed it in
between. Whoever did cleared the cache before it was cached.
-/
theorem PutSince.read_or_late {octets : Octets} (put : PutSince (cacheKey id) octets past)
    (tidy : ∀ i, Tidy (ownCalls i past))
    : ∃ p, octets = p.encode ∧ (CachedLate id p past
        ∨ ∃ later reader read early, past = later ++ (reader, read) :: early
          ∧ read.read? = some (id, some p) ∧ ∀ event ∈ later, event.2.changes id = false) := by
  obtain ⟨later, reader, caching, earlier, split, cached, since⟩ := put
  obtain ⟨other, p, read, own, rfl, among, reads⟩ := (tidy_split tidy split).caches rfl cached
  obtain rfl : id = other := Uuid.text_injective own
  obtain ⟨between, early, rfl⟩ := List.append_of_mem (mem_ownCalls.mp among)
  refine ⟨p, rfl, ?_⟩
  by_cases unchanged : ∀ event ∈ between, event.2.changes id = false
  · refine .inr ⟨later ++ (reader, caching) :: between, reader, read, early, by simp [split], reads, ?_⟩
    intro event member
    rcases List.mem_append.mp member with after | member
    · exact not_changes_of_not_cleared tidy split since event after
    rcases List.mem_cons.mp member with rfl | member
    · exact Answered.not_changes_of_cached? cached
    · exact unchanged event member
  · obtain ⟨⟨writer, change⟩, member, changes⟩ : ∃ event ∈ between, event.2.changes id = true := by
      simpa using unchanged
    obtain ⟨after, before, rfl⟩ := List.append_of_mem member
    rw [List.append_assoc, List.cons_append] at split
    obtain ⟨clearing, cleared, clears⟩ := exists_clearing_before tidy split cached since changes
    refine .inl ⟨later, reader, caching, _, split, cached, since, writer, clearing, change, read, ?_,
      clears, changes, reads⟩
    refine (List.singleton_sublist.mpr cleared).append (List.Sublist.cons_cons (writer, change) ?_)
    exact (List.singleton_sublist.mpr List.mem_cons_self).trans (List.sublist_append_right _ _)

end Past

-----------------------------------------------------------------------------------------
-- Whom a request gets afterwards
-----------------------------------------------------------------------------------------

section Requests

variable {start : Backend} {span : Span} {requests : List Request} {schedule : List Move}

/-- What the cache holds for a person, once requests that overlapped are over, is the person on record
unless it was cached late.
-/
theorem cached_after (coherent : start.Coherent)
    (stored : ∀ request ∈ requests, request.CreatesNobody)
    (reliable : ∀ m ∈ schedule, m.IsReliable)
    (ended : ((Overlap.begun start span requests).after schedule).IsOver) {id : Uuid}
    {held : Option Person} (before : start.table.get id = .ok held) {octets : Octets}
    (hit
      : ((Overlap.begun start span requests).after schedule).backend.cache.get start.cacheTime
          (cacheKey id) = some octets)
    : ∃ p, octets = p.encode
        ∧ (record id held ((Overlap.begun start span requests).after schedule).past = some p
          ∨ CachedLate id p ((Overlap.begun start span requests).after schedule).past) := by
  have tidy := tidy_after stored reliable ended
  have recorded : ((Overlap.begun start span requests).after schedule).Recorded start :=
    recorded_after fun m among => (reliable m among).calm
  rcases cacheTold_after.held (cacheKey id) octets hit with put | ⟨old, since⟩
  · obtain ⟨p, rfl, late | ⟨later, reader, read, early, split, reads, unchanged⟩⟩ :=
      put.read_or_late tidy
    · exact ⟨p, rfl, .inr late⟩
    · have was := recorded.reads id held later reader read (some p) early before split reads
      refine ⟨p, rfl, .inl ?_⟩
      rw [split, ← List.singleton_append, ← List.append_assoc,
        record_append_of_not_changes (fun event member => ?_), was]
      rcases List.mem_append.mp member with among | last
      · exact unchanged event among
      · rw [List.mem_singleton.mp last]
        exact Answered.changes_of_read reads
  · obtain ⟨p, live, rfl⟩ := coherent id octets old
    obtain rfl := Except.ok.inj (before.symm.trans live)
    refine ⟨p, rfl, .inl ?_⟩
    rw [← List.append_nil (Overlap.past _), record_append_of_not_changes
      (not_changes_of_not_cleared tidy (List.append_nil _).symm since)]
    rfl

/-- A person that the cache does not give is answered from the store. -/
theorem run_getStored {b : Backend} {id : Uuid} {found : Option Person}
    (up : b.isDown .storeGet = false) (live : b.table.get id = .ok found) (span : Span)
    : ((getStored span id).run Backend.perform b).1 = onRecord id found := by
  rw [getStored, Program.run_ask, Backend.perform_get up, live]
  cases found <;> rfl

/-- A person is answered from the store, or as the cache holds it. -/
theorem run_get {b : Backend} {id : Uuid} {found : Option Person}
    (up : b.isDown .storeGet = false) (live : b.table.get id = .ok found) (span : Span)
    : ((get span id).run Backend.perform b).1 = onRecord id found
      ∨ ∃ octets p, b.cache.get b.cacheTime (cacheKey id) = some octets
        ∧ Person.decode octets = .ok p ∧ ((get span id).run Backend.perform b).1 = .ok p := by
  have missed := run_getStored up live span
  cases down : b.isDown .cacheGet with
  | true =>
      have looked : b.perform (.cacheGet (cacheKey id)) = (.error ⟨Outage.cacheGet.text⟩, b) := if_pos down
      rw [get, Program.run_ask, looked]
      exact .inl missed
  | false =>
      have looked : b.perform (.cacheGet (cacheKey id))
          = (.ok (b.cache.get b.cacheTime (cacheKey id)), b) := if_neg (ne_true_of_eq_false down)
      rw [get, Program.run_ask, looked]
      cases hit : b.cache.get b.cacheTime (cacheKey id) with
      | none => exact .inl missed
      | some octets =>
          cases decoded : Person.decode octets with
          | error e =>
              simp only [decoded]
              exact .inl missed
          | ok p =>
              simp only [decoded]
              exact .inr ⟨octets, p, rfl, decoded, rfl⟩

/-- Whoever is asked for after requests that overlapped gets the person on record, or that there is none.
The exception is a person that one of these requests had read before another one changed it, and cached
after that one had cleared the cache: then it may be the person as it was read.
-/
theorem get_after_overlap (coherent : start.Coherent)
    (stored : ∀ request ∈ requests, request.CreatesNobody)
    (reliable : ∀ m ∈ schedule, m.IsReliable)
    : let s := (Overlap.begun start span requests).after schedule
      s.IsOver → ∀ id held outages later, start.table.get id = .ok held → .storeGet ∉ outages →
        s.backend.table.get id = .ok (record id held s.past)
          ∧ (((get later id).run Backend.perform (s.backend.facing outages)).1
              = onRecord id (record id held s.past)
            ∨ ∃ p, ((get later id).run Backend.perform (s.backend.facing outages)).1 = .ok p
              ∧ CachedLate id p s.past) := by
  intro s ended id held outages later before up
  have live : s.backend.table.get id = .ok (record id held s.past) :=
    (recorded_after fun m among => (reliable m among).calm).table id held before
  have up : (s.backend.facing outages).isDown .storeGet = false := by
    simpa [Backend.isDown, Backend.facing] using up
  have time : s.backend.cacheTime = start.cacheTime := cacheTold_after.time
  refine ⟨live, ?_⟩
  rcases run_get up live later with answer | ⟨octets, p, hit, decoded, answer⟩
  · exact .inl answer
  · have held_ : s.backend.cache.get start.cacheTime (cacheKey id) = some octets := time ▸ hit
    obtain ⟨cached, rfl, current | late⟩ := cached_after coherent stored reliable ended before held_
    · rw [Person.decode_encode] at decoded
      obtain rfl := Except.ok.inj decoded
      exact .inl (by rw [answer, current, onRecord])
    · rw [Person.decode_encode] at decoded
      obtain rfl := Except.ok.inj decoded
      exact .inr ⟨cached, answer, late⟩

theorem Backend.coherent_holding (p : Person) : (Backend.holding p).Coherent := by
  rintro _ _ ⟨⟩

/-- A person is read and cached while it is changed, and then deleted: afterwards there is none. -/
theorem get_after_overlap_deleted
    : let start := Backend.holding ada
      let requests : List Request := [.get .nil, .update .nil { age := some 37 }, .delete .nil]
      let s := (Overlap.begun start defaultCacheSpan requests).after
        ([0, 1, 0, 0, 1, 1, 2, 2].map (⟨·, []⟩))
      start.Coherent ∧ s.IsOver ∧ start.table.get .nil = .ok (some ada)
        ∧ s.backend.table.get .nil = .ok none
        ∧ (((get defaultCacheSpan .nil).run Backend.perform (s.backend.facing [])).1
            = .error (.notFound .nil)
          ∨ ∃ p, ((get defaultCacheSpan .nil).run Backend.perform (s.backend.facing [])).1 = .ok p
            ∧ CachedLate .nil p s.past) := by
  intro start requests
  have coherent : start.Coherent := Backend.coherent_holding ada
  have stored : ∀ request ∈ requests, request.CreatesNobody := by
    simp [requests, Request.CreatesNobody]
  have reliable : ∀ m ∈ [0, 1, 0, 0, 1, 1, 2, 2].map (Move.mk · []), m.IsReliable := by
    intro m member
    obtain ⟨program, -, rfl⟩ := List.mem_map.mp member
    exact ⟨List.not_mem_nil, List.not_mem_nil⟩
  have live : start.table.get .nil = .ok (some ada) := by decide +kernel
  have ended : ((Overlap.begun start defaultCacheSpan requests).after
      ([0, 1, 0, 0, 1, 1, 2, 2].map (Move.mk · []))).IsOver := by
    decide +kernel
  have deleted : record .nil (some ada) ((Overlap.begun start defaultCacheSpan requests).after
      ([0, 1, 0, 0, 1, 1, 2, 2].map (Move.mk · []))).past = none := by
    decide +kernel
  obtain ⟨table, answer⟩ := get_after_overlap coherent stored reliable ended .nil (some ada) []
    defaultCacheSpan live List.not_mem_nil
  rw [deleted] at table answer
  exact ⟨coherent, ended, live, table, answer⟩

/-- A person is read before it is changed and cached after that: it is given as it was. -/
theorem get_after_overlap_stale
    : let start := Backend.holding ada
      let requests : List Request := [.get .nil, .update .nil { age := some 37 }]
      let s := (Overlap.begun start defaultCacheSpan requests).after
        ([0, 0, 1, 1, 1, 0].map (⟨·, []⟩))
      start.Coherent ∧ s.IsOver
        ∧ s.backend.table.get .nil = .ok (some { ada with age := some 37 })
        ∧ ((get defaultCacheSpan .nil).run Backend.perform s.backend).1 = .ok ada := by
  intro start requests s
  exact ⟨Backend.coherent_holding ada, by decide +kernel, by decide +kernel, by decide +kernel⟩

end Requests

end Service
end PersonRegistry
