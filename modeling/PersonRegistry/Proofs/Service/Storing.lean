import PersonRegistry.Proofs.Service.Caching

/-! Storing a new person: on what it depends whether the store takes it, and what becomes of the table. -/

namespace PersonRegistry.Service

open Store (Row)
open Text (Octets)

/-- A call that has nothing to do with the store or the cache. -/
def Call.IsOutside : Call → Prop
  | .lookUp _ | .publish _ | .report _ => True
  | _ => False

namespace Backend

/-- What decides a message is the same: the services and their deadline, the identifiers, and whether
reports are thrown away.
-/
structure SameServices (before after : Backend) : Prop where
  replies : after.replies = before.replies
  deadline : after.deadline = before.deadline
  ids : after.ids = before.ids
  reports : after.reports.isNone = before.reports.isNone

/-- The same parts are down, too. -/
structure SameConditions (before after : Backend) : Prop extends SameServices before after where
  outages : after.outages = before.outages

/-- The table is the same, and as many identifiers were given. -/
structure SameStore (before after : Backend) : Prop where
  table : after.table = before.table
  issued : after.issued = before.issued

/-- Persons were stored, each in a row of its own behind all others and under the next identifier. -/
structure Gains (before : Backend) (persons : List Person) (after : Backend) : Prop where
  issued : after.issued = before.issued + persons.length
  rows : ∃ gained, after.table.rows = before.table.rows ++ gained
    ∧ gained.map (·.person) = persons.map .ok
    ∧ gained.map (·.personId)
      = (List.range persons.length).map (fun k => (before.ids (before.issued + k)).text)
    ∧ ∀ row ∈ gained, row.isDeleted = false

/-- A report that is sent now arrives. -/
def delivers (b : Backend) : Bool := b.reports.isNone || !b.isDown .reports

/-- A new person is not stored now: the store is down, or the next identifier is taken. -/
def refuses (b : Backend) : Bool :=
  b.isDown .storeCreate || b.table.rows.any (·.personId = (b.ids b.issued).text)

variable {b before after last : Backend} {c : Call} {p : Person}

theorem SameServices.trans (first : before.SameServices after) (second : after.SameServices last)
    : before.SameServices last where
  replies := second.replies.trans first.replies
  deadline := second.deadline.trans first.deadline
  ids := second.ids.trans first.ids
  reports := second.reports.trans first.reports

theorem SameConditions.refl (b : Backend) : b.SameConditions b := ⟨⟨rfl, rfl, rfl, rfl⟩, rfl⟩

theorem SameConditions.trans (first : before.SameConditions after)
    (second : after.SameConditions last)
    : before.SameConditions last :=
  ⟨first.toSameServices.trans second.toSameServices, second.outages.trans first.outages⟩

theorem SameConditions.delivers (same : before.SameConditions after)
    : after.delivers = before.delivers := by
  rw [Backend.delivers, Backend.delivers, isDown, isDown, same.reports, same.outages]

theorem SameConditions.refuses (same : before.SameConditions after)
    (store : before.SameStore after)
    : after.refuses = before.refuses := by
  rw [Backend.refuses, Backend.refuses, isDown, isDown, same.outages, same.ids, store.table,
    store.issued]

theorem SameStore.gains (same : before.SameStore after) : before.Gains [] after :=
  ⟨same.issued, [], by rw [same.table, List.append_nil], rfl, rfl, by simp⟩

theorem Gains.trans {persons others : List Person} (first : before.Gains persons after)
    (ids : after.ids = before.ids) (second : after.Gains others last)
    : before.Gains (persons ++ others) last := by
  obtain ⟨gained, rows, read, own, live⟩ := first.rows
  obtain ⟨gainedThen, rowsThen, readThen, ownThen, liveThen⟩ := second.rows
  refine ⟨?_, gained ++ gainedThen, ?_, ?_, ?_, ?_⟩
  · rw [second.issued, first.issued, List.length_append, Nat.add_assoc]
  · rw [rowsThen, rows, List.append_assoc]
  · rw [List.map_append, List.map_append, read, readThen]
  · rw [List.map_append, own, ownThen, List.length_append, List.range_add, List.map_append,
      List.map_map, ids, first.issued]
    simp only [Function.comp_def, Nat.add_assoc]
  · intro row member
    exact (List.mem_append.mp member).elim (live row) (liveThen row)

/-- No call changes the conditions, by cases on it. -/
theorem perform_sameConditions (b : Backend) (c : Call) : b.SameConditions (b.perform c).2 := by
  have kept : b.SameConditions b := .refl b
  cases c with
  | create p =>
      refine storeCall_cases (motive := fun r => b.SameConditions r.2) ⟨⟨rfl, rfl, rfl, rfl⟩, rfl⟩ ?_
      rw [create]
      split <;> exact ⟨⟨rfl, rfl, rfl, rfl⟩, rfl⟩
  | get _ | list _ | update _ | delete _ =>
      exact storeCall_cases (motive := fun r => b.SameConditions r.2) ⟨⟨rfl, rfl, rfl, rfl⟩, rfl⟩
        ⟨⟨rfl, rfl, rfl, rfl⟩, rfl⟩
  | lookUp name => exact ⟨⟨rfl, rfl, rfl, rfl⟩, rfl⟩
  | cacheGet _ | cacheSet _ _ _ | cacheDelete _ =>
      exact cacheCall_cases (motive := fun r => b.SameConditions r.2) kept ⟨⟨rfl, rfl, rfl, rfl⟩, rfl⟩
  | publish message =>
      rw [perform, publish]
      split <;> exact ⟨⟨rfl, rfl, rfl, rfl⟩, rfl⟩
  | report message =>
      rw [perform, report]
      split
      next => exact kept
      next some_ =>
        split
        next => exact kept
        next => exact ⟨⟨rfl, rfl, rfl, by rw [some_]; rfl⟩, rfl⟩

/-- A call outside the store leaves it as it is. -/
theorem perform_sameStore (b : Backend) (outside : c.IsOutside) : b.SameStore (b.perform c).2 := by
  cases c with
  | lookUp name => exact ⟨rfl, rfl⟩
  | publish message =>
      rw [perform, publish]
      split <;> exact ⟨rfl, rfl⟩
  | report message =>
      rw [perform, report]
      split
      next => exact ⟨rfl, rfl⟩
      next => split <;> exact ⟨rfl, rfl⟩
  | _ => exact outside.elim

theorem isOk_report (b : Backend) (message : Octets)
    : (b.perform (.report message)).1.isOk = b.delivers := by
  rw [perform, report, delivers]
  cases none_ : b.reports with
  | none => rfl
  | some reports =>
      cases down : b.isDown .reports <;> rfl

/-- A new person is stored unless it is refused, by the conditions on which it is. -/
theorem perform_create_cases (b : Backend) (p : Person)
    : if b.refuses then
        ∃ e, (b.perform (.create p)).1 = .error e ∧ b.SameStore (b.perform (.create p)).2
      else
        (b.perform (.create p)).1 = .ok { p with id := some (b.ids b.issued) }
          ∧ b.Gains [{ p with id := some (b.ids b.issued) }] (b.perform (.create p)).2 := by
  cases down : b.isDown .storeCreate with
  | true =>
      rw [refuses, down, Bool.true_or, if_pos rfl,
        show b.perform (.create p) = _ from storeCall_down down]
      exact ⟨_, rfl, rfl, rfl⟩
  | false =>
      rw [refuses, down, Bool.false_or, perform_create down, create, Store.Table.create]
      cases taken : b.table.rows.any (·.personId = (b.ids b.issued).text) with
      | true =>
          have clash : b.counted.table.rows.any (·.personId = (b.counted.ids b.counted.issued).text)
              = true := taken
          rw [if_pos rfl, if_pos clash]
          exact ⟨_, rfl, rfl, rfl⟩
      | false =>
          have free : ¬b.counted.table.rows.any (·.personId = (b.counted.ids b.counted.issued).text)
              = true := ne_true_of_eq_false taken
          rw [if_neg Bool.false_ne_true, if_neg free]
          refine ⟨rfl, rfl, [.ofPerson (b.ids b.issued) b.now p], rfl, ?_, rfl, by simp [Row.ofPerson]⟩
          exact congrArg (fun read => [read]) (Row.person_of_text rfl)

theorem stored_of_create {stored : Person} (takes : b.perform (.create p) = (.ok stored, after))
    : b.refuses = false ∧ stored = { p with id := some (b.ids b.issued) } ∧ b.Gains [stored] after := by
  have call := b.perform_create_cases p
  rw [takes] at call
  split at call
  next =>
    obtain ⟨e, fails, -⟩ := call
    cases fails
  next free =>
    obtain ⟨answer, gains⟩ := call
    obtain rfl := Except.ok.inj answer
    exact ⟨eq_false_of_ne_true free, rfl, gains⟩

theorem refuses_of_create {e : Store.Error} (fails : b.perform (.create p) = (.error e, after))
    : b.refuses = true ∧ b.SameStore after := by
  have call := b.perform_create_cases p
  rw [fails] at call
  split at call
  next refuses => exact ⟨refuses, call.choose_spec.2⟩
  next => cases call.1

end Backend
end PersonRegistry.Service
