import Mathlib.Data.List.Induction
import PersonRegistry.Proofs.Service.Schedules

/-! Changes of one person that overlap. Each reads the person, patches what it read and writes all of it
back, so that a change written between the two is lost.
-/

namespace PersonRegistry

-----------------------------------------------------------------------------------------
-- Patches one after another
-----------------------------------------------------------------------------------------

namespace Patch

/-- One patch for two: each field is that of the later patch if it has one, and else that of the first. -/
def followedBy (first later : Patch) : Patch where
  name := later.name <|> first.name
  surname := later.surname <|> first.surname
  patronymic := later.patronymic <|> first.patronymic
  age := later.age <|> first.age
  gender := later.gender <|> first.gender
  nationality := later.nationality <|> first.nationality

/-- A field is only overwritten by a later patch that carries it. -/
theorem apply_followedBy (first later : Patch) (p : Person)
    : (first.followedBy later).apply p = later.apply (first.apply p) := by
  obtain ⟨name, surname, patronymic, age, gender, nationality⟩ := later
  simp only [apply, followedBy, Person.mk.injEq, true_and]
  refine ⟨?_, ?_, ?_, ?_, ?_, ?_⟩
  · cases name <;> rfl
  · cases surname <;> rfl
  · cases patronymic <;> rfl
  · cases age <;> rfl
  · cases gender <;> rfl
  · cases nationality <;> rfl

/-- One patch for many, the earliest first. -/
def inTurn (patches : List Patch) : Patch := patches.foldl followedBy {}

/-- Patches one after another do what the one patch for them does, by induction from the last. -/
theorem apply_inTurn (patches : List Patch) (p : Person)
    : (inTurn patches).apply p = patches.foldl (fun held patch => patch.apply held) p := by
  induction patches using List.reverseRecOn with
  | nil => rfl
  | append_singleton earlier last ih =>
      rw [inTurn, List.foldl_append, List.foldl_append, ← inTurn]
      exact (apply_followedBy _ _ p).trans (congrArg last.apply ih)

end Patch

namespace Service

open Store (Table)
open Time (Span)

-----------------------------------------------------------------------------------------
-- The calls of one change
-----------------------------------------------------------------------------------------

/-- A change that succeeds reads the person, writes it patched, and clears it from the cache. -/
def Rewrites (id : Uuid) (patch : Patch) (calls : List Answered) (result : Except Error Outcome)
    : Prop :=
  ∀ outcome, result = .ok outcome → ∃ held written cleared, held.id = some id
    ∧ calls = [⟨.cacheDelete (cacheKey id), cleared⟩, ⟨.update (patch.apply held), .ok (some written)⟩,
      ⟨.get id, .ok (some held)⟩]

/-- A person is written under the identifier it was read by. -/
theorem Rewrites.change? {id : Uuid} {patch : Patch} {held : Person} (own : held.id = some id)
    (written : Person)
    : Answered.change? ⟨.update (patch.apply held), .ok (some written)⟩
      = some (id, some (patch.apply held)) := by
  have same : (patch.apply held).id = some id := own
  rw [Answered.change?, same, Option.map_some]

theorem update_endsAs (id : Uuid) (patch : Patch) (span : Span)
    : (programOf span (.update id patch)).EndsAs Call.AnsweredById (Rewrites id patch) [] := by
  refine Program.EndsAs.map _ fun found own => ?_
  rcases found with e | none | held
  · rintro _ ⟨⟩
  · rintro _ ⟨⟩
  · simp only
    split
    next => rintro _ ⟨⟩
    next =>
      intro written _
      rcases written with e | none | written
      · rintro _ ⟨⟩
      · rintro _ ⟨⟩
      · intro cleared _
        cases cleared with
        | error e => rintro _ ⟨⟩
        | ok cleared => exact fun _ _ => ⟨held, written, .ok cleared, own, rfl⟩

-----------------------------------------------------------------------------------------
-- Who wrote when
-----------------------------------------------------------------------------------------

/-- The programs that changed a person, in the order in which they did. -/
def writers (id : Uuid) : (past : List Event) → List Nat
  | [] => []
  | event :: earlier =>
      if event.2.changes id then writers id earlier ++ [event.1] else writers id earlier

/-- A program changed a person after another one had read it and before that one changed it too. -/
def FallsWithin (id : Uuid) (inner outer : Nat) (past : List Event) : Prop :=
  ∃ change other read found,
    [(outer, change), (inner, other), (outer, read)].Sublist past ∧ change.changes id = true
      ∧ other.changes id = true ∧ read.read? = some (id, found)

/-- The person with the patches of some programs applied one after another. -/
def patched (patches : List Patch) (programs : List Nat) (p : Person) : Person :=
  (programs.filterMap (patches[·]?)).foldl (fun held patch => patch.apply held) p

variable {id : Uuid} {past : List Event}

theorem writers_append (id : Uuid) (later earlier : List Event)
    : writers id (later ++ earlier) = writers id earlier ++ writers id later := by
  induction later with
  | nil => exact (List.append_nil _).symm
  | cons event rest ih =>
      rw [List.cons_append, writers, writers, ih]
      split
      next => exact List.append_assoc _ _ _
      next => rfl

theorem mem_writers {i : Nat}
    : i ∈ writers id past ↔ ∃ done, (i, done) ∈ past ∧ done.changes id = true := by
  induction past with
  | nil => simp [writers]
  | cons event earlier ih =>
      obtain ⟨j, done⟩ := event
      rw [writers]
      split
      next changes =>
        rw [List.mem_append, ih, List.mem_singleton]
        constructor
        · rintro (⟨done, member, changes⟩ | rfl)
          · exact ⟨done, List.mem_cons_of_mem _ member, changes⟩
          · exact ⟨done, List.mem_cons_self, changes⟩
        · rintro ⟨other, member, changes⟩
          rcases List.mem_cons.mp member with same | member
          · exact .inr (Prod.mk.inj same).1
          · exact .inl ⟨other, member, changes⟩
      next still =>
        rw [ih]
        constructor
        · rintro ⟨done, member, changes⟩
          exact ⟨done, List.mem_cons_of_mem _ member, changes⟩
        · rintro ⟨other, member, changes⟩
          rcases List.mem_cons.mp member with same | member
          · exact absurd ((Prod.mk.inj same).2 ▸ changes) still
          · exact ⟨other, member, changes⟩

/-- A program is among the writers as often as it changed the person, by induction on the calls. -/
theorem count_writers (i : Nat)
    : (writers id past).count i = (ownCalls i past).countP (·.changes id) := by
  induction past with
  | nil => rfl
  | cons event earlier ih =>
      obtain ⟨j, done⟩ := event
      rw [writers]
      by_cases own : j = i
      · subst own
        rw [ownCalls_own, List.countP_cons]
        split
        next => rw [List.count_append, ih, List.count_singleton_self]
        next => exact ih
      · rw [ownCalls_other own]
        split
        next => rw [List.count_append, ih, List.count_singleton, if_neg (by simpa using own)]; rfl
        next => exact ih

-----------------------------------------------------------------------------------------
-- Which changes the record shows
-----------------------------------------------------------------------------------------

/-- Each change of a person patches what the same program had read of it, which was on record then. -/
def PatchesWhatWasRead (id : Uuid) (initial : Person) (patches : List Patch) (past : List Event)
    : Prop :=
  ∀ later i done earlier, past = later ++ (i, done) :: earlier → done.changes id = true →
    ∃ patch held read between early, patches[i]? = some patch
      ∧ done.change? = some (id, some (patch.apply held))
      ∧ earlier = between ++ (i, read) :: early ∧ read.read? = some (id, some held)
      ∧ record id (some initial) early = some held

variable {initial : Person} {patches : List Patch}

theorem PatchesWhatWasRead.before {early : List Event}
    (fromReads : PatchesWhatWasRead id initial patches past) (ends : early <:+ past)
    : PatchesWhatWasRead id initial patches early := by
  obtain ⟨late, rfl⟩ := ends
  intro later i done earlier split changes
  exact fromReads (late ++ later) i done earlier (by rw [split, List.append_assoc]) changes

theorem FallsWithin.after {inner outer : Nat} {early : List Event}
    (within : FallsWithin id inner outer early) (ends : early <:+ past)
    : FallsWithin id inner outer past := by
  obtain ⟨change, other, read, found, order, facts⟩ := within
  exact ⟨change, other, read, found, order.trans ends.sublist, facts⟩

theorem patched_append (patches : List Patch) (programs : List Nat) {last : Nat} {patch : Patch}
    (own : patches[last]? = some patch) (p : Person)
    : patched patches (programs ++ [last]) p = patch.apply (patched patches programs p) := by
  simp [patched, own]

/-- The record shows the patches of some writers one after another. Each other writer changed the person
between the reading and the writing of one of them.
-/
structure Shows (id : Uuid) (initial : Person) (patches : List Patch) (past : List Event)
    (shown : List Nat) : Prop where
  among : shown.Sublist (writers id past)
  same : record id (some initial) past = some (patched patches shown initial)
  others : ∀ j ∈ writers id past, j ∉ shown → ∃ i ∈ shown, FallsWithin id j i past

namespace Shows

variable {early between : List Event} {shown : List Nat} {i : Nat} {done read : Answered}

/-- Nothing else is shown after a call that changes nothing. -/
theorem skip (shows : Shows id initial patches past shown) (keeps : done.changes id = false)
    : Shows id initial patches ((i, done) :: past) shown := by
  have sameWriters : writers id ((i, done) :: past) = writers id past := by
    rw [writers, keeps, if_neg Bool.false_ne_true]
  refine ⟨sameWriters ▸ shows.among, ?_, fun j wrote hidden => ?_⟩
  · rw [record, Answered.leaves_of_not_changes keeps, shows.same]
  · obtain ⟨outer, member, within⟩ := shows.others j (sameWriters ▸ wrote) hidden
    exact ⟨outer, member, within.after (List.suffix_cons _ past)⟩

/-- Who changed a person that someone had read, and who then writes it, falls within that change. -/
theorem fallsWithin {j : Nat} {found : Option Person} (changes : done.changes id = true)
    (reading : read.read? = some (id, found)) (meanwhile : j ∈ writers id (between ++ [(i, read)]))
    : FallsWithin id j i ((i, done) :: (between ++ (i, read) :: early)) := by
  obtain ⟨other, member, changed⟩ := mem_writers.mp meanwhile
  have inside : (j, other) ∈ between := by
    rcases List.mem_append.mp member with inside | last
    · exact inside
    · obtain ⟨-, rfl⟩ := Prod.mk.inj (List.mem_singleton.mp last)
      rw [Answered.changes_of_read reading] at changed
      cases changed
  refine ⟨done, other, read, found, ?_, changes, changed, reading⟩
  have readThere := List.singleton_sublist.mpr (List.mem_cons_self (a := (i, read)) (l := early))
  exact ((List.singleton_sublist.mpr inside).append readThere).cons_cons (i, done)

/-- A writer shows what it read, patched. Nobody who wrote in between is shown. -/
theorem write {patch : Patch} {held : Person} (shows : Shows id initial patches early shown)
    (own : patches[i]? = some patch) (reading : read.read? = some (id, some held))
    (before : record id (some initial) early = some held)
    (change : done.change? = some (id, some (patch.apply held)))
    : Shows id initial patches ((i, done) :: (between ++ (i, read) :: early)) (shown ++ [i]) := by
  have changes : done.changes id = true := by
    rw [Answered.changes, change, Option.any_some, decide_eq_true rfl]
  have allWriters : writers id ((i, done) :: (between ++ (i, read) :: early))
      = writers id early ++ (writers id (between ++ [(i, read)]) ++ [i]) := by
    rw [writers, changes, if_pos rfl, ← List.append_assoc, ← writers_append,
      List.append_assoc, List.singleton_append]
  obtain rfl : patched patches shown initial = held :=
    Option.some.inj (shows.same.symm.trans before)
  refine ⟨?_, ?_, fun j wrote hidden => ?_⟩
  · rw [allWriters]
    exact shows.among.append (List.sublist_append_right _ [i])
  · rw [record, Answered.leaves, change, patched_append patches shown own]
    exact if_pos rfl
  · simp only [List.mem_append, List.mem_singleton, not_or] at hidden
    rw [allWriters, List.mem_append, List.mem_append, List.mem_singleton] at wrote
    rcases wrote with old | meanwhile | rfl
    · obtain ⟨outer, member, within⟩ := shows.others j old hidden.1
      have ends : early <:+ (i, done) :: (between ++ (i, read) :: early) :=
        ⟨(i, done) :: between ++ [(i, read)], by simp⟩
      exact ⟨outer, List.mem_append_left _ member, within.after ends⟩
    · exact ⟨i, List.mem_append_right _ List.mem_cons_self, fallsWithin changes reading meanwhile⟩
    · exact absurd rfl hidden.2

end Shows

/-- Some writers are shown, by induction on the calls. After a change the record shows what its writer had
read, so that the induction goes on from there and not from the call before.
-/
theorem exists_shown (past : List Event) (fromReads : PatchesWhatWasRead id initial patches past)
    : ∃ shown, Shows id initial patches past shown := by
  cases past with
  | nil => exact ⟨[], .slnil, rfl, by simp [writers]⟩
  | cons event rest =>
      obtain ⟨i, done⟩ := event
      cases changes : done.changes id with
      | false =>
          have ⟨shown, shows⟩ := exists_shown rest (fromReads.before (List.suffix_cons _ rest))
          exact ⟨shown, shows.skip changes⟩
      | true =>
          obtain ⟨patch, held, read, between, early, own, change, rfl, reading, before⟩ :=
            fromReads [] i done rest rfl changes
          have ends : early <:+ (i, done) :: (between ++ (i, read) :: early) :=
            ⟨(i, done) :: between ++ [(i, read)], by simp⟩
          have ⟨shown, shows⟩ := exists_shown early (fromReads.before ends)
          exact ⟨shown ++ [i], shows.write own reading before change⟩
termination_by past.length

-----------------------------------------------------------------------------------------
-- All of them succeed
-----------------------------------------------------------------------------------------

/-- All programs are over, and none of them failed. -/
def Overlap.Succeeded (s : Overlap) : Prop :=
  ∀ program ∈ s.programs, program.Succeeded

instance (s : Overlap) : Decidable s.Succeeded :=
  inferInstanceAs (Decidable (∀ program ∈ s.programs, program.Succeeded))

section Updates

variable {start : Backend} {span : Span} {schedule : List Move}

/-- The changes of a person, begun together and advanced by a schedule. -/
def changing (start : Backend) (span : Span) (id : Uuid) (patches : List Patch)
    (schedule : List Move) : Overlap :=
  (Overlap.begun start span (patches.map (.update id ·))).after schedule

/-- The calls of a change that succeeded are its reading, its writing and its clearing of the cache. -/
theorem ownCalls_changing (succeeded : (changing start span id patches schedule).Succeeded) {i : Nat}
    {patch : Patch} (own : patches[i]? = some patch)
    : ∃ held written cleared, held.id = some id
        ∧ ownCalls i (changing start span id patches schedule).past
          = [⟨.cacheDelete (cacheKey id), cleared⟩, ⟨.update (patch.apply held), .ok (some written)⟩,
            ⟨.get id, .ok (some held)⟩] := by
  have kept : (changing start span id patches schedule).KeptTo Call.AnsweredById
      fun i calls result => ∀ patch, patches[i]? = some patch → Rewrites id patch calls result := by
    refine kept_after (fun i request asked => ?_) fun _ _ b c => (b.facing _).perform_answeredById c
    rw [List.getElem?_map, Option.map_eq_some_iff] at asked
    obtain ⟨patch, own, rfl⟩ := asked
    refine (update_endsAs id patch span).imp fun calls result rewrites other same => ?_
    obtain rfl := Option.some.inj (own.symm.trans same)
    exact rewrites
  have ended : (changing start span id patches schedule).IsOver := fun program member =>
    (succeeded program member).imp' Except.ok fun _ ended => ended
  have known : i < (changing start span id patches schedule).programs.length := by
    rw [changing, programs_after.1, List.length_map]
    exact (List.getElem?_eq_some_iff.mp own).1
  obtain ⟨result, there, rewrites⟩ := kept.ended ended known
  obtain ⟨outcome, done⟩ := succeeded _ (List.mem_of_getElem? there)
  exact rewrites patch own outcome (Program.done.inj done)

theorem patchesWhatWasRead_changing (live : start.table.get id = .ok (some initial))
    (calm : ∀ m ∈ schedule, m.IsCalm)
    (succeeded : (changing start span id patches schedule).Succeeded)
    : PatchesWhatWasRead id initial patches (changing start span id patches schedule).past := by
  intro later i done earlier split changes
  have known : i < patches.length := by
    have member : (i, done) ∈ (changing start span id patches schedule).past := by simp [split]
    simpa using programs_after.2 (i, done) member
  obtain ⟨held, written, cleared, own, calls⟩ :=
    ownCalls_changing succeeded (List.getElem?_eq_getElem known)
  rw [split, ownCalls_append, ownCalls_own] at calls
  -- of the three calls, the second is the one that changes
  rcases before : ownCalls i later with _ | ⟨first, _ | ⟨second, others⟩⟩
  · rw [before, List.nil_append, List.cons.injEq] at calls
    obtain ⟨rfl, -⟩ := calls
    cases changes
  · simp only [before, List.cons_append, List.nil_append, List.cons.injEq] at calls
    obtain ⟨-, rfl, rest⟩ := calls
    have member : (i, ⟨.get id, .ok (some held)⟩) ∈ earlier := by
      rw [← mem_ownCalls, rest]
      exact List.mem_cons_self
    obtain ⟨between, early, rfl⟩ := List.append_of_mem member
    have was := (recorded_after calm).reads id (some initial)
      (later ++ (i, ⟨.update (patches[i].apply held), .ok (some written)⟩) :: between) i
      ⟨.get id, .ok (some held)⟩ (some held) early live (by rw [← changing, split]; simp) rfl
    refine ⟨patches[i], held, ⟨.get id, .ok (some held)⟩, between, early, List.getElem?_eq_getElem known,
      ?_, rfl, rfl, was.symm⟩
    exact Rewrites.change? own written
  · simp only [before, List.cons_append, List.cons.injEq] at calls
    obtain ⟨-, -, rest⟩ := calls
    rcases others with _ | ⟨third, more⟩
    · obtain ⟨rfl, -⟩ := List.cons.inj rest
      cases changes
    · simp at rest

/-- Each change that succeeded wrote once, by the count of its calls. -/
theorem writers_perm (succeeded : (changing start span id patches schedule).Succeeded)
    : (writers id (changing start span id patches schedule).past).Perm (List.range patches.length) := by
  rw [List.perm_iff_count]
  intro i
  rw [count_writers, List.count_range]
  split
  next known =>
    obtain ⟨held, written, cleared, own, calls⟩ :=
      ownCalls_changing succeeded (List.getElem?_eq_getElem known)
    have changes : Answered.changes id ⟨.update (patches[i].apply held), .ok (some written)⟩ = true := by
      rw [Answered.changes, Rewrites.change? own, Option.any_some, decide_eq_true rfl]
    rw [calls, List.countP_cons_of_neg (by exact Bool.false_ne_true), List.countP_cons_of_pos changes,
      List.countP_cons_of_neg (by exact Bool.false_ne_true), List.countP_nil]
  next unknown =>
    refine List.countP_eq_zero.mpr fun done member => ?_
    have known := programs_after.2 (i, done) (mem_ownCalls.mp member)
    exact absurd (by simpa using known) unknown

/-- Changes of one person that overlap and all succeed leave on record what the patches of some of them come
to, one after another in the order of their writing. Any other change was written between the reading and
the writing of one of these, which lost it. Where no change is written between the reading and the writing
of another, the record shows all of them.
-/
theorem record_changing (live : start.table.get id = .ok (some initial))
    (calm : ∀ m ∈ schedule, m.IsCalm)
    (succeeded : (changing start span id patches schedule).Succeeded)
    : let s := changing start span id patches schedule
      (writers id s.past).Perm (List.range patches.length)
        ∧ ∃ shown : List Nat, shown.Sublist (writers id s.past)
          ∧ s.backend.table.get id = .ok (some (patched patches shown initial))
          ∧ patched patches shown initial
            = (Patch.inTurn (shown.filterMap (patches[·]?))).apply initial
          ∧ (∀ j < patches.length, j ∉ shown → ∃ i ∈ shown, FallsWithin id j i s.past)
          ∧ ((∀ i j, ¬FallsWithin id j i s.past) → shown = writers id s.past) := by
  intro s
  have order := writers_perm succeeded
  obtain ⟨shown, among, same, others⟩ :=
    exists_shown s.past (patchesWhatWasRead_changing live calm succeeded)
  have hidden : ∀ j < patches.length, j ∉ shown → ∃ i ∈ shown, FallsWithin id j i s.past :=
    fun j known missing => others j (order.mem_iff.mpr (List.mem_range.mpr known)) missing
  refine ⟨order, shown, among, ?_, (Patch.apply_inTurn _ _).symm, hidden, fun apart => ?_⟩
  · rw [← same]
    exact (recorded_after calm).table id (some initial) live
  · refine among.eq_of_length_le ?_
    have all : writers id s.past ⊆ shown := by
      intro j wrote
      by_contra missing
      obtain ⟨i, -, within⟩ := others j wrote missing
      exact apart i j within
    exact (order.nodup_iff.mpr List.nodup_range).length_le_of_subset all

/-- Three changes of different fields, the first of which is lost to the second. -/
theorem record_changing_three
    : let start := Backend.holding ada
      let patches : List Patch :=
        [{ age := some 37 }, { nationality := some "FR" }, { surname := some "King" }]
      let schedule : List Move := [0, 1, 0, 1, 2, 2, 2, 0, 1].map (⟨·, []⟩)
      let s := changing start defaultCacheSpan .nil patches schedule
      start.table.get .nil = .ok (some ada) ∧ s.Succeeded ∧ writers .nil s.past = [0, 1, 2]
        ∧ s.backend.table.get .nil = .ok (some (patched patches [1, 2] ada))
        ∧ ∃ shown : List Nat, shown.Sublist (writers .nil s.past)
          ∧ s.backend.table.get .nil = .ok (some (patched patches shown ada))
          ∧ ∀ j < patches.length, j ∉ shown → ∃ i ∈ shown, FallsWithin .nil j i s.past := by
  intro start patches schedule
  have live : start.table.get .nil = .ok (some ada) := by decide +kernel
  have calm : ∀ m ∈ schedule, m.IsCalm := by
    intro m member
    obtain ⟨program, -, rfl⟩ := List.mem_map.mp member
    exact List.not_mem_nil
  have succeeded : (changing start defaultCacheSpan .nil patches schedule).Succeeded := by
    decide +kernel
  obtain ⟨-, shown, among, same, -, hidden, -⟩ := record_changing live calm succeeded
  exact ⟨live, succeeded, by decide +kernel, by decide +kernel, shown, among, same, hidden⟩

/-- Two changes of different fields that both read the person first: the second to write undoes the first. -/
theorem record_changing_lost
    : let start := Backend.holding ada
      let patches : List Patch := [{ age := some 37 }, { nationality := some "FR" }]
      let s := changing start defaultCacheSpan .nil patches ([0, 1, 0, 1, 0, 1].map (⟨·, []⟩))
      start.table.get .nil = .ok (some ada) ∧ s.Succeeded
        ∧ ∀ order ∈ [patches, patches.reverse], s.backend.table.get .nil
          ≠ .ok (some (order.foldl (fun held patch => patch.apply held) ada)) := by
  intro start patches s
  exact ⟨by decide +kernel, by decide +kernel, by decide +kernel⟩

end Updates
end Service
end PersonRegistry
