import Mathlib.Data.List.Nodup
import PersonRegistry.Proofs.Service.Interleaving
import PersonRegistry.Proofs.Store.Soundness

/-! Whatever requests overlap, and whatever fails or is given up meanwhile, the table holds none but
persons in order, under distinct identifiers, and nobody comes back once deleted.
-/

namespace PersonRegistry.Service

open Inference (Reply Trait)
open Store (Row Table)
open Time (Span)

-----------------------------------------------------------------------------------------
-- What requests write
-----------------------------------------------------------------------------------------

/-- A call that writes a person writes one in order. -/
def Call.WritesProper : Call → Prop
  | .create p => p.Proper
  | .update p => p.Proper
  | _ => True

/-- A person that the store gives has no empty patronymic. -/
def Call.AnsweredProperly : (c : Call) → c.Answer → Prop
  | .get _, .ok (some p) => p.patronymic ≠ some ""
  | _, _ => True

/-- A new person is checked once all its traits are there, and has the patronymic of its draft. -/
theorem create_keeps (draft : Draft)
    : (create draft).Keeps Call.WritesProper Call.AnsweredProperly := by
  rw [create]
  split
  next => trivial
  next =>
    refine ⟨trivial, fun found _ => ?_⟩
    cases found with
    | error e => trivial
    | ok found =>
        simp only
        split
        next => trivial
        next faultless =>
          have patronymic : (found.apply draft.candidate).patronymic ≠ some "" :=
            draft.candidate_patronymic
          refine ⟨⟨Decidable.not_not.mp faultless, patronymic⟩, fun stored _ => ?_⟩
          cases stored with
          | error e => trivial
          | ok stored => exact ⟨trivial, fun _ _ => trivial⟩

/-- A changed person is checked as a whole, whatever it was read as. -/
theorem update_keeps (id : Uuid) (patch : Patch)
    : (update id patch).Keeps Call.WritesProper Call.AnsweredProperly := by
  refine ⟨trivial, fun found proper => ?_⟩
  rcases found with e | none | held
  · trivial
  · trivial
  · simp only
    split
    next => trivial
    next faultless =>
      refine ⟨⟨Decidable.not_not.mp faultless, patch.apply_patronymic proper⟩, fun written _ => ?_⟩
      rcases written with e | none | written
      · trivial
      · trivial
      · refine ⟨trivial, fun cleared _ => ?_⟩
        cases cleared <;> trivial

theorem delete_keeps (id : Uuid)
    : (delete id).Keeps Call.WritesProper Call.AnsweredProperly := by
  refine ⟨trivial, fun deleted _ => ?_⟩
  rcases deleted with e | _ | _
  · trivial
  · trivial
  · refine ⟨trivial, fun cleared _ => ?_⟩
    cases cleared <;> trivial

theorem programOf_keeps (span : Span) (request : Request)
    : (programOf span request).Keeps Call.WritesProper Call.AnsweredProperly := by
  cases request with
  | create draft => exact (create_keeps draft).map _
  | get id => exact (get_keeps trivial trivial fun _ => trivial).map _
  | list filter => exact (list_keeps trivial).map _
  | update id patch => exact (update_keeps id patch).map _
  | delete id => exact (delete_keeps id).map _

-----------------------------------------------------------------------------------------
-- What calls leave behind
-----------------------------------------------------------------------------------------

namespace Backend

variable {b : Backend}

/-- A call of the store keeps the table sound if what it does keeps it, since it does nothing otherwise. -/
theorem storeCall_continues {α : Type} (sound : b.table.Sound) (part : Outage)
    (act : Backend → Except Store.Error α × Backend)
    (acts : (act b.counted).2.table.Sound ∧ b.table.Continues (act b.counted).2.table)
    : (b.storeCall part act).2.table.Sound ∧ b.table.Continues (b.storeCall part act).2.table :=
  storeCall_cases (motive := fun r => r.2.table.Sound ∧ b.table.Continues r.2.table)
    ⟨sound, .refl _⟩ acts

/-- The table that a change of a person meets, which someone else may have deleted first. -/
theorem table_update (b : Backend) (p : Person)
    : ∃ met : Table, (met = b.table ∨ ∃ id, met = (b.table.delete b.now id).2)
        ∧ (Backend.update p b).2.table = (met.update b.now p).2 := by
  cases own : p.id with
  | none =>
      refine ⟨b.table, .inl rfl, ?_⟩
      simp only [Backend.update, own]
  | some id =>
      cases vanishes : b.isDown .storeVanish with
      | true =>
          refine ⟨(b.table.delete b.now id).2, .inr ⟨id, rfl⟩, ?_⟩
          simp only [Backend.update, own, vanishes, if_true]
      | false =>
          refine ⟨b.table, .inl rfl, ?_⟩
          simp only [Backend.update, own, vanishes, if_false, Bool.false_eq_true]

/-- A change to a person in order keeps the table sound, whether it was deleted meanwhile or not. -/
theorem update_continues {p : Person} (sound : b.table.Sound) (proper : p.Proper)
    : (Backend.update p b).2.table.Sound ∧ b.table.Continues (Backend.update p b).2.table := by
  obtain ⟨met, origin, written⟩ := table_update b p
  have intact : met.Sound ∧ b.table.Continues met := by
    rcases origin with rfl | ⟨id, rfl⟩
    · exact ⟨sound, .refl _⟩
    · exact sound.delete id
  have updated := intact.1.update proper b.now
  rw [written]
  exact ⟨updated.1, intact.2.trans updated.2⟩

/-- A call that writes none but persons in order keeps the table sound, by cases on the call. -/
theorem perform_continues {c : Call} (sound : b.table.Sound) (proper : c.WritesProper)
    : (b.perform c).2.table.Sound ∧ b.table.Continues (b.perform c).2.table := by
  have counted : b.counted.table.Sound := sound
  have kept : b.table.Sound ∧ b.table.Continues b.table := ⟨sound, .refl _⟩
  have read {c : Call} (reads : c.Reads)
      : (b.perform c).2.table.Sound ∧ b.table.Continues (b.perform c).2.table := by
    rw [table_perform reads]
    exact kept
  cases c with
  | create p =>
      refine storeCall_continues sound .storeCreate (Backend.create p) ?_
      simp only [Backend.create]
      split
      next => exact kept
      next created => exact sound.create proper created
  | update p =>
      exact storeCall_continues sound .storeUpdate (Backend.update p) (update_continues counted proper)
  | delete id => exact storeCall_continues sound .storeDelete (Backend.delete id) (sound.delete id)
  | _ => exact read trivial

theorem perform_answers (sound : b.table.Sound) (c : Call)
    : c.AnsweredProperly (b.perform c).1 := by
  cases c with
  | get id =>
      cases down : b.isDown .storeGet with
      | true =>
          rw [show b.perform (.get id) = _ from storeCall_down down]
          trivial
      | false =>
          rw [perform_get down]
          cases found : b.table.get id with
          | error e => trivial
          | ok held =>
              cases held with
              | none => trivial
              | some p => exact (sound.proper_of_get found).patronymic
  | _ => trivial

end Backend

-----------------------------------------------------------------------------------------
-- Overlapping requests
-----------------------------------------------------------------------------------------

/-- Everything may change on its own but the table. -/
def Backend.SameTable (before after : Backend) : Prop := after.table = before.table

/-- The table is sound, and every program underway writes none but persons in order. -/
structure Underway.Valid (s : Underway) : Prop where
  sound : s.backend.table.Sound
  keeps : ∀ program ∈ s.programs, program.Keeps Call.WritesProper Call.AnsweredProperly

variable {s s' : Underway}

/-- One step keeps the whole valid, and continues the table. -/
theorem Underway.Valid.step (valid : s.Valid) (step : Step Backend.SameTable s s')
    : s'.Valid ∧ s.backend.table.Continues s'.backend.table := by
  have keeps := step.keeps programOf_keeps (Backend.perform_answers valid.sound) valid.keeps
  cases step with
  | begin request span => exact ⟨⟨valid.sound, keeps⟩, .refl _⟩
  | @call _ before after c next underway =>
      have own := valid.keeps (.ask c next) (by simp [underway])
      have written := Backend.perform_continues valid.sound own.1
      exact ⟨⟨written.1, keeps⟩, written.2⟩
  | leave underway => exact ⟨⟨valid.sound, keeps⟩, .refl _⟩
  | @drift _ b drifted =>
      have same : b.table = s.backend.table := drifted
      exact ⟨⟨same ▸ valid.sound, keeps⟩, same ▸ .refl _⟩

/-- So do any number of steps, by induction on them. -/
theorem Underway.Valid.steps (valid : s.Valid) (steps : Steps Backend.SameTable s s')
    : s'.Valid ∧ s.backend.table.Continues s'.backend.table := by
  induction steps with
  | refl => exact ⟨valid, .refl _⟩
  | tail _ step ih =>
      obtain ⟨valid, continues⟩ := ih
      obtain ⟨validThen, continuesThen⟩ := valid.step step
      exact ⟨validThen, continues.trans continuesThen⟩

/-- Whatever overlapped on an empty table left it sound. -/
theorem sound_of_steps {start : Underway} (empty : start.backend.table = {}) (idle : start.programs = [])
    (reached : Steps Backend.SameTable start s)
    : s.backend.table.Sound :=
  (Underway.Valid.steps ⟨empty ▸ Table.sound_empty, by simp [idle]⟩ reached).1.sound

/-- However requests overlap that started on an empty table, every row holds a person in order under an
identifier of its own, with the keys of its own name parts. A deleted row stays as it is for good, and no
other ever takes its identifier.
-/
theorem stored_rows_valid {start later : Underway} (empty : start.backend.table = {})
    (idle : start.programs = []) (reached : Steps Backend.SameTable start s)
    (continued : Steps Backend.SameTable s later)
    : (∀ row ∈ s.backend.table.rows, row.Sound)
      ∧ (s.backend.table.rows.map (·.personId)).Nodup
      ∧ ∀ row ∈ s.backend.table.rows, row.isDeleted = true →
          row ∈ later.backend.table.rows
            ∧ ∀ other ∈ later.backend.table.rows, other.personId = row.personId → other = row := by
  have valid : start.Valid := by
    constructor
    · rw [empty]
      exact Table.sound_empty
    · simp [idle]
  obtain ⟨valid, -⟩ := valid.steps reached
  obtain ⟨validThen, continues⟩ := valid.steps continued
  refine ⟨valid.sound.rows, valid.sound.distinct, fun row member gone => ?_⟩
  obtain ⟨index, stands⟩ := List.mem_iff_getElem?.mp member
  obtain ⟨same, standsThen, -, untouched⟩ := continues index row stands
  obtain rfl := untouched gone
  have stays := List.mem_iff_getElem?.mpr ⟨index, standsThen⟩
  exact ⟨stays, fun other there own =>
    List.inj_on_of_nodup_map validThen.sound.distinct there stays own⟩

/-- A person is created, deleted and then asked to change. -/
theorem stored_rows_valid_create_delete
    : let created := Underway.served ⟨.answering .nil, []⟩
        (.create { name := "Ada", surname := "Byron" })
      let deleted := created.served (.delete .nil)
      let changed := deleted.served (.update .nil { age := some 37 })
      deleted.backend.table.rows.map (·.isDeleted) = [true]
        ∧ (∀ row ∈ deleted.backend.table.rows, row.Sound)
        ∧ ∀ row ∈ deleted.backend.table.rows, row.isDeleted = true →
            row ∈ changed.backend.table.rows := by
  intro created deleted changed
  have reached : Steps Backend.SameTable ⟨.answering .nil, []⟩ deleted :=
    (Steps.served _ _).trans (Steps.served created _)
  have continued : Steps Backend.SameTable deleted changed := Steps.served deleted _
  have valid := stored_rows_valid rfl rfl reached continued
  exact ⟨by decide +kernel, valid.1, fun row member gone => (valid.2.2 row member gone).1⟩

end PersonRegistry.Service
