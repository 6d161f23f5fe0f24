import PersonRegistry.Proofs.Service.Creation
import PersonRegistry.Proofs.Service.StoredValidity

/-! What each operation leaves of the surroundings: one that fails changes nothing that a later one could
tell, and one that succeeds adds or changes a single row, or none.
-/

namespace PersonRegistry.Service

open Store (Row Table)
open Time (Instant Span)

-----------------------------------------------------------------------------------------
-- Surroundings that can be reached
-----------------------------------------------------------------------------------------

namespace Backend

/-- Surroundings that calls lead to from an empty table, whoever makes them and in whatever order. In
between, everything but the table may change on its own.
-/
inductive Reachable : Backend → Prop
  | start {b : Backend} (empty : b.table = {}) : Reachable b
  | call {b : Backend} (reachable : Reachable b) (c : Call) : Reachable (b.perform c).2
  | drift {b after : Backend} (reachable : Reachable b) (same : after.table = b.table)
      : Reachable after

variable {b after last : Backend}

/-- A program leads from reachable surroundings to others. -/
theorem Reachable.run {α : Type} (reachable : b.Reachable) (program : Program α)
    : (b.run program).2.Reachable :=
  program.run_induction (fun c _ reachable => .call reachable c) reachable

/-- A call leaves the identifiers of the rows distinct, by cases on it. -/
theorem perform_distinct (distinct : (b.table.rows.map (·.personId)).Nodup) (c : Call)
    : ((b.perform c).2.table.rows.map (·.personId)).Nodup := by
  have read {c : Call} (reads : c.Reads) : ((b.perform c).2.table.rows.map (·.personId)).Nodup := by
    rw [table_perform reads]
    exact distinct
  cases c with
  | create p =>
      refine storeCall_cases (motive := fun r => (r.2.table.rows.map (·.personId)).Nodup) distinct ?_
      rw [Backend.create]
      split
      next => exact distinct
      next created => exact Table.distinct_create distinct created
  | update p =>
      refine storeCall_cases (motive := fun r => (r.2.table.rows.map (·.personId)).Nodup) distinct ?_
      obtain ⟨met, origin, written⟩ := table_update b.counted p
      rw [written, Table.map_personId_update]
      rcases origin with rfl | ⟨id, rfl⟩
      · exact distinct
      · rw [Table.map_personId_delete]
        exact distinct
  | delete id =>
      refine storeCall_cases (motive := fun r => (r.2.table.rows.map (·.personId)).Nodup) distinct ?_
      exact (Table.map_personId_delete b.table b.now id).symm ▸ distinct
  | _ => exact read trivial

/-- No two rows ever have the same identifier, by induction on how the surroundings are reached. -/
theorem Reachable.distinct (reachable : b.Reachable) : (b.table.rows.map (·.personId)).Nodup := by
  induction reachable with
  | start empty => simp [empty]
  | call _ c ih => exact perform_distinct ih c
  | drift _ same ih => rwa [same]

-----------------------------------------------------------------------------------------
-- Surroundings that nobody wrote to
-----------------------------------------------------------------------------------------

/-- Nothing has changed but the time, and how often the store was called. -/
def Unmoved (before after : Backend) : Prop :=
  ∃ calls time, after = { before with storeCalls := calls, time := time }

theorem Unmoved.refl (b : Backend) : b.Unmoved b := ⟨b.storeCalls, b.time, rfl⟩

theorem Unmoved.counted (b : Backend) : b.Unmoved b.counted := ⟨b.storeCalls + 1, b.time, rfl⟩

theorem Unmoved.trans (first : b.Unmoved after) (second : after.Unmoved last) : b.Unmoved last := by
  obtain ⟨_, _, rfl⟩ := first
  obtain ⟨calls, time, rfl⟩ := second
  exact ⟨calls, time, rfl⟩

theorem Unmoved.table (unmoved : b.Unmoved after) : after.table = b.table := by
  obtain ⟨_, _, rfl⟩ := unmoved
  rfl

/-- Under the same conditions at the same time, surroundings that nobody wrote to differ in nothing but
the number of calls.
-/
theorem Unmoved.under (unmoved : b.Unmoved after) (conditions : Conditions) (cacheTime : Nat)
    : Alike { b.under conditions with cacheTime := cacheTime }
        { after.under conditions with cacheTime := cacheTime } := by
  obtain ⟨calls, _, rfl⟩ := unmoved
  exact ⟨calls, rfl⟩

theorem Alike.unmoved (alike : b.Alike after) : b.Unmoved after := by
  obtain ⟨calls, rfl⟩ := alike
  exact ⟨calls, b.time, rfl⟩

/-- A call of the cache is answered alike if what it does pays no attention to the number of calls. -/
theorem Alike.cacheCall {α : Type} (alike : b.Alike after) (part : Outage)
    (act : Backend → α × Backend)
    (same : (act b).1 = (act after).1 ∧ (act b).2.Alike (act after).2)
    : (b.cacheCall part act).1 = (after.cacheCall part act).1
      ∧ (b.cacheCall part act).2.Alike (after.cacheCall part act).2 := by
  cases down : b.isDown part with
  | true =>
      have downToo := (alike.isDown part).trans down
      rw [Backend.cacheCall, Backend.cacheCall, if_pos down, if_pos downToo]
      exact ⟨rfl, alike⟩
  | false =>
      have upToo := (alike.isDown part).trans down
      rw [Backend.cacheCall, Backend.cacheCall, if_neg (ne_true_of_eq_false down),
        if_neg (ne_true_of_eq_false upToo)]
      exact ⟨congrArg Except.ok same.1, same.2⟩

/-- Every call is answered alike, those of the cache too. -/
theorem Alike.perform (alike : b.Alike after) (c : Call)
    : (b.perform c).1 = (after.perform c).1 ∧ (b.perform c).2.Alike (after.perform c).2 := by
  have uncached := alike.performUncached c
  cases c with
  | cacheGet _ | cacheSet _ _ _ | cacheDelete _ =>
      refine alike.cacheCall _ _ ?_
      obtain ⟨calls, rfl⟩ := alike
      exact ⟨rfl, calls, rfl⟩
  | _ => exact uncached

/-- A program gives the same, by induction on it. -/
theorem Alike.run {α : Type} (alike : b.Alike after) (program : Program α)
    : (b.run program).1 = (after.run program).1 ∧ (b.run program).2.Alike (after.run program).2 := by
  induction program generalizing b after with
  | done a => exact ⟨rfl, alike⟩
  | ask c next ih =>
      obtain ⟨answer, alike⟩ := alike.perform c
      have runs := ih (after.perform c).1 alike
      rw [Backend.run, Backend.run, Program.run_ask, Program.run_ask, answer]
      exact runs

/-- Calls that only look move nothing. -/
theorem lookUp_unmoved (b : Backend) (name : String) : b.Unmoved (b.perform (.lookUp name)).2 :=
  ⟨b.storeCalls, _, rfl⟩

theorem get_unmoved (b : Backend) (id : Uuid) : b.Unmoved (b.perform (.get id)).2 :=
  storeCall_cases (motive := fun r => b.Unmoved r.2) (.counted b) (.counted b)

theorem list_unmoved (b : Backend) (filter : Filter) : b.Unmoved (b.perform (.list filter)).2 :=
  storeCall_cases (motive := fun r => b.Unmoved r.2) (.counted b) (.counted b)

theorem cacheGet_unmoved (b : Backend) (key : String) : b.Unmoved (b.perform (.cacheGet key)).2 :=
  cacheCall_cases (motive := fun r => b.Unmoved r.2) (.refl b) (.refl b)

/-- A person that is not stored moves nothing. -/
theorem create_unmoved {p : Person} {e : Store.Error} (fails : (b.perform (.create p)).1 = .error e)
    : b.Unmoved (b.perform (.create p)).2 := by
  refine storeCall_cases (motive := fun r => r.1 = .error e → b.Unmoved r.2) (fun _ => .counted b) ?_
    fails
  rw [Backend.create]
  split
  next => exact fun _ => .counted b
  next =>
    intro stored
    cases stored

end Backend

-----------------------------------------------------------------------------------------
-- Single rows
-----------------------------------------------------------------------------------------

/-- One row is changed, which is live for the identifier, and no other. -/
structure Backend.ChangesRow (before : Backend) (id : Uuid) (row changed : Row) (after : Backend) :
    Prop where
  live : row.isLiveFor id = true
  rows : ∃ earlier later, before.table.rows = earlier ++ row :: later
    ∧ after.table.rows = earlier ++ changed :: later

/-- Where identifiers are distinct, what is changed for one of them is a single row. -/
theorem exists_changed {rows : List Row} {id : Uuid} (distinct : (rows.map (·.personId)).Nodup)
    (live : rows.any (Row.isLiveFor id) = true) (change : Row → Row)
    : ∃ earlier row later, rows = earlier ++ row :: later ∧ row.isLiveFor id = true
      ∧ (rows.map fun row => if row.isLiveFor id then change row else row)
        = earlier ++ change row :: later := by
  obtain ⟨row, member, own⟩ := List.any_eq_true.mp live
  obtain ⟨earlier, later, rfl⟩ := List.append_of_mem member
  have kept {others : List Row} (apart : ∀ other ∈ others, other.personId ≠ row.personId)
      : (others.map fun row => if row.isLiveFor id then change row else row) = others := by
    refine (List.map_congr_left fun other among => if_neg fun lives => ?_).trans (List.map_id _)
    exact apart other among
      ((Row.personId_of_isLiveFor lives).trans (Row.personId_of_isLiveFor own).symm)
  rw [List.map_append, List.map_cons, List.nodup_append, List.nodup_cons] at distinct
  obtain ⟨-, ⟨notLater, -⟩, notEarlier⟩ := distinct
  refine ⟨earlier, row, later, rfl, own, ?_⟩
  rw [List.map_append, List.map_cons, if_pos own, kept, kept]
  · exact fun other among same => notLater (same ▸ List.mem_map_of_mem among)
  · exact fun other among same =>
      notEarlier _ (List.mem_map_of_mem among) _ List.mem_cons_self same

/-- So is what is written over. -/
theorem exists_overwritten {table : Table} {id : Uuid} {now : Instant} {p written : Person}
    (distinct : (table.rows.map (·.personId)).Nodup) (own : p.id = some id)
    (updated : (table.update now p).1 = some written)
    : ∃ earlier row later, table.rows = earlier ++ row :: later ∧ row.isLiveFor id = true
      ∧ (table.update now p).2.rows = earlier ++ row.overwritten now p :: later := by
  simp only [Table.update, own] at updated ⊢
  split at updated
  next live =>
    simp only [live, if_true]
    exact exists_changed distinct live (·.overwritten now p)
  next => cases updated

theorem person_overwritten {row : Row} {id : Uuid} {now : Instant} {p : Person} (own : p.id = some id)
    (live : row.isLiveFor id = true)
    : (row.overwritten now p).person = .ok p := by
  have text := (row.personId_overwritten now p).trans (Row.personId_of_isLiveFor live)
  rw [Row.person_of_text text, row.personOf_overwritten now own]

-----------------------------------------------------------------------------------------
-- Operations
-----------------------------------------------------------------------------------------

/-- A call of the service fails and moves nothing, or succeeds and does what it is there for. -/
inductive AllOrNothing {α : Type} (b : Backend) (does : α → Backend → Prop) :
    Except Error α × Backend → Prop
  | failed {e : Error} {after : Backend} (unmoved : b.Unmoved after)
      : AllOrNothing b does (.error e, after)
  | done {a : α} {after : Backend} (done : does a after) : AllOrNothing b does (.ok a, after)

variable {b : Backend}

/-- What is all or nothing once nothing was moved, is so from the start. -/
theorem AllOrNothing.of_unmoved {α : Type} {now : Backend} {does doesToo : α → Backend → Prop}
    {ended : Except Error α × Backend} (unmoved : b.Unmoved now) (effect : AllOrNothing now does ended)
    (implies : ∀ a after, does a after → doesToo a after)
    : AllOrNothing b doesToo ended := by
  cases effect with
  | failed unmovedThen => exact .failed (unmoved.trans unmovedThen)
  | done done => exact .done (implies _ _ done)

theorem list_effect (b : Backend) (filter : Filter)
    : AllOrNothing b (fun _ after => after.table = b.table) (b.run (list filter)) := by
  rw [Backend.run, list]
  split
  next => exact .failed (.refl b)
  next =>
    have unmoved := b.list_unmoved filter
    rw [Program.run_ask]
    cases (b.perform (.list filter)).1 with
    | error e => exact .failed unmoved
    | ok found => exact .done unmoved.table

theorem getStored_effect (b : Backend) (span : Span) (id : Uuid)
    : AllOrNothing b (fun _ after => after.table = b.table) (b.run (getStored span id)) := by
  have unmoved := b.get_unmoved id
  rw [Backend.run, getStored, Program.run_ask]
  rcases (b.perform (.get id)).1 with e | none | p
  · exact .failed unmoved
  · exact .failed unmoved
  · exact .done ((Backend.table_perform (c := .cacheSet _ _ _) trivial).trans unmoved.table)

/-- A person that is read is cached at most. -/
theorem get_effect (b : Backend) (span : Span) (id : Uuid)
    : AllOrNothing b (fun _ after => after.table = b.table) (b.run (get span id)) := by
  have looked := b.cacheGet_unmoved (cacheKey id)
  have stored := (getStored_effect (b.perform (.cacheGet (cacheKey id))).2 span id).of_unmoved looked
    fun _ after same => same.trans looked.table
  rw [Backend.run, get, Program.run_ask]
  rcases (b.perform (.cacheGet (cacheKey id))).1 with e | none | octets
  · exact stored
  · exact stored
  · simp only
    split
    next => exact .done looked.table
    next => exact stored

/-- A person is created in a row behind all others, or by whatever stage ends the creation, nothing is
moved.
-/
theorem create_effect (b : Backend) (draft : Draft)
    : AllOrNothing b
        (fun p after => ∃ row, after.table.rows = b.table.rows ++ [row] ∧ row.person = .ok p
          ∧ row.isDeleted = false)
        (b.run (create draft)) := by
  have made := creation Backend.perform b draft
  have looked := b.lookUp_unmoved draft.name
  rw [Backend.run]
  generalize (create draft).trace Backend.perform b = calls at made
  generalize (create draft).run Backend.perform b = ended at made ⊢
  obtain ⟨result, after⟩ := ended
  cases made with
  | invalid => exact .failed (.refl _)
  | unknown valid fails =>
      rw [fails] at looked
      exact .failed looked
  | unfit valid finds =>
      rw [finds] at looked
      exact .failed looked
  | @refused found e now _ completes fails =>
      have unmoved := Backend.create_unmoved (congrArg Prod.fst fails)
      rw [completes.finds] at looked
      rw [fails] at unmoved
      exact .failed (looked.trans unmoved)
  | @stored found p now after _ _ completes takes told =>
      have published := Backend.table_perform (b := after) (c := .publish (createdEvent p)) trivial
      obtain ⟨free, -, gains⟩ := Backend.stored_of_create takes
      obtain ⟨row, rows, person, live, -⟩ := row_of_gains free gains
      rw [completes.finds] at looked
      rw [told] at published
      rw [← published, looked.table] at rows
      exact .done ⟨row, rows, person, live⟩

/-- A cache that works is cleared, and the result is given. -/
theorem run_clearing {α : Type} (clears : b.isDown .cacheDelete = false) (id : Uuid) (a : α)
    : (clearing id a).run Backend.perform b
      = (.ok a, { b with cache := b.cache.delete (cacheKey id) }) := by
  have up : b.perform (.cacheDelete (cacheKey id))
      = (.ok (), { b with cache := b.cache.delete (cacheKey id) }) :=
    if_neg (by rw [clears]; exact Bool.false_ne_true)
  rw [clearing, Program.run_ask, up]
  rfl

/-- A person is written over one row, and no other is changed. -/
def Backend.Rewrites (before : Backend) (id : Uuid) (p : Person) (after : Backend) : Prop :=
  ∃ row, before.ChangesRow id row (row.overwritten before.now p) after
    ∧ (row.overwritten before.now p).person = .ok p

theorem writeBack_effect (distinct : (b.table.rows.map (·.personId)).Nodup)
    (clears : b.isDown .cacheDelete = false) (calm : b.isDown .storeVanish = false) {id : Uuid}
    {p : Person} (own : p.id = some id)
    : AllOrNothing b (b.Rewrites id) (b.run (writeBack id p)) := by
  rw [Backend.run, writeBack, Program.run_ask]
  cases down : b.isDown .storeUpdate with
  | true =>
      rw [show b.perform (.update p) = _ from Backend.storeCall_down down]
      exact .failed (.counted b)
  | false =>
      rw [Backend.perform_update down calm]
      cases updated : (b.table.update b.now p).1 with
      | none =>
          rw [Table.update_of_none updated]
          exact .failed (.counted b)
      | some written =>
          obtain ⟨-, rfl⟩ := Table.person_of_update updated
          simp only
          rw [run_clearing (by exact clears)]
          obtain ⟨earlier, row, later, rows, live, changed⟩ := exists_overwritten distinct own updated
          exact .done
            ⟨row, ⟨live, earlier, later, rows, changed⟩, person_overwritten own live⟩

theorem update_effect (distinct : (b.table.rows.map (·.personId)).Nodup)
    (clears : b.isDown .cacheDelete = false) (calm : b.isDown .storeVanish = false) (id : Uuid)
    (patch : Patch)
    : AllOrNothing b (b.Rewrites id) (b.run (update id patch)) := by
  rw [Backend.run, update, Program.run_ask]
  cases down : b.isDown .storeGet with
  | true =>
      rw [show b.perform (.get id) = _ from Backend.storeCall_down down]
      exact .failed (.counted b)
  | false =>
      rw [Backend.perform_get down]
      cases live : b.table.get id with
      | error e => exact .failed (.counted b)
      | ok found =>
          cases found with
          | none => exact .failed (.counted b)
          | some held =>
              have kept : (patch.apply held).id = held.id := rfl
              have own := kept.trans (Table.id_of_get live)
              simp only
              split
              next => exact .failed (.counted b)
              next =>
                have written := writeBack_effect (b := b.counted) distinct clears calm own
                refine written.of_unmoved (.counted b) ?_
                rintro _ _ ⟨row, changes, holds⟩
                exact ⟨row, ⟨changes.live, changes.rows⟩, holds⟩

theorem delete_effect (distinct : (b.table.rows.map (·.personId)).Nodup)
    (clears : b.isDown .cacheDelete = false) (id : Uuid)
    : AllOrNothing b
        (fun _ after => ∃ row, b.ChangesRow id row (row.deleted b.now) after)
        (b.run (delete id)) := by
  rw [Backend.run, delete, Program.run_ask]
  cases down : b.isDown .storeDelete with
  | true =>
      rw [show b.perform (.delete id) = _ from Backend.storeCall_down down]
      exact .failed (.counted b)
  | false =>
      rw [Backend.perform_delete down]
      cases deleted : (b.table.delete b.now id).1 with
      | false =>
          rw [Table.delete_of_false deleted]
          exact .failed (.counted b)
      | true =>
          simp only
          rw [run_clearing (by exact clears)]
          obtain ⟨earlier, row, later, rows, live, changed⟩ :=
            exists_changed distinct deleted (·.deleted b.now)
          exact .done ⟨row, live, earlier, later, rows, changed⟩

end PersonRegistry.Service
