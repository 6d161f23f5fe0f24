import PersonRegistry.Proofs.Store.Matching

/-! Rows can be read: each stands under the text of an identifier, which is read back, so that no call of the
table fails because of one.
-/

namespace PersonRegistry.Store

open Time (Instant)

variable {filter : Filter} {e : Error}

-----------------------------------------------------------------------------------------
-- Trials
-----------------------------------------------------------------------------------------

theorem keyCondition_error {pattern key : Option String} (fails : keyCondition pattern key = .error e)
    : e = .patternTooLong := by
  cases pattern with
  | none => cases fails
  | some pattern =>
      rw [keyCondition] at fails
      split at fails
      next => exact (Except.error.inj fails).symm
      next => cases fails

theorem andThen_error {condition others : Except Error Bool} (fails : andThen condition others = .error e)
    : condition = .error e ∨ others = .error e := by
  cases condition with
  | error flaw => exact Or.inl fails
  | ok held =>
      cases held with
      | true => exact Or.inr fails
      | false => cases fails

/-- The trial of a row fails because of a pattern, if it does. -/
theorem Row.fulfils_error {row : Row} (fails : row.fulfils filter = .error e) : e = .patternTooLong := by
  let fields : Bool := fieldCondition filter.age row.age && fieldCondition filter.gender row.gender
    && fieldCondition filter.nationality row.nationality
  have stages : row.fulfils filter
      = if row.isDeleted then .ok false
        else
          andThen (keyCondition (filter.name.map startPattern) (some row.nameKey))
            (andThen (keyCondition (filter.surname.map startPattern) (some row.surnameKey))
              (andThen (keyCondition (filter.patronymic.map startPattern) row.patronymicKey)
                (.ok fields))) := rfl
  rw [stages] at fails
  split at fails
  next => cases fails
  next =>
    rcases andThen_error fails with name | fails
    · exact keyCondition_error name
    rcases andThen_error fails with surname | fails
    · exact keyCondition_error surname
    rcases andThen_error fails with patronymic | fails
    · exact keyCondition_error patronymic
    · cases fails

namespace Table

theorem select_error {rows : List Row} (fails : select filter rows = .error e) : e = .patternTooLong := by
  induction rows with
  | nil => cases fails
  | cons row rest ih =>
      rw [select] at fails
      cases trial : row.fulfils filter with
      | error flaw =>
          rw [trial] at fails
          obtain rfl : flaw = e := Except.error.inj fails
          exact Row.fulfils_error trial
      | ok held =>
          rw [trial] at fails
          cases later : select filter rest with
          | error flaw =>
              rw [later] at fails
              obtain rfl : flaw = e := Except.error.inj fails
              exact ih later
          | ok found =>
              rw [later] at fails
              cases fails

-----------------------------------------------------------------------------------------
-- Calls of the table
-----------------------------------------------------------------------------------------

variable {table after : Table} {id : Uuid} {now : Instant} {p stored : Person}

/-- Every row stands under the text of an identifier. -/
def Identified (table : Table) : Prop :=
  ∀ text ∈ table.rows.map (·.personId), ∃ id : Uuid, text = id.text

theorem identified_empty : Identified {} := List.forall_mem_nil _

theorem mapM_readable {rows : List Row} (readable : ∀ row ∈ rows, ∃ id : Uuid, row.personId = id.text)
    : ∃ found, rows.mapM Row.person = .ok found := by
  induction rows with
  | nil => exact ⟨[], rfl⟩
  | cons row rest ih =>
      obtain ⟨⟨id, own⟩, others⟩ := List.forall_mem_cons.mp readable
      obtain ⟨found, read⟩ := ih others
      refine ⟨row.personOf id :: found, ?_⟩
      rw [List.mapM_cons, Row.person_of_text own, read]
      rfl

/-- A listing fails because of a pattern, if it does. -/
theorem Identified.list_error (identified : table.Identified) (fails : table.list filter = .error e)
    : e = .patternTooLong := by
  rw [list] at fails
  split at fails
  next => cases fails
  next =>
    cases selected : select filter table.ordered with
    | error flaw =>
        rw [selected] at fails
        obtain rfl : flaw = e := Except.error.inj fails
        exact select_error selected
    | ok found =>
        rw [selected] at fails
        have readable : ∀ row ∈ (found.drop (min filter.pageStart pageBound)).take
            (min filter.pageSize pageBound), ∃ id : Uuid, row.personId = id.text := by
          intro row member
          have stands := (forall_of_select selected row
            (List.mem_of_mem_drop (List.mem_of_mem_take member))).1
          exact identified _ (List.mem_map.mpr ⟨row, table.ordered_perm.mem_iff.mp stands, rfl⟩)
        obtain ⟨persons, read⟩ := mapM_readable readable
        have listed : Except.ok persons = Except.error e := read.symm.trans fails
        cases listed

theorem create_error (refused : table.create id now p = .error e) : e = .duplicateId := by
  rw [create] at refused
  split at refused
  next => exact (Except.error.inj refused).symm
  next => cases refused

/-- A new row stands under the text of its identifier. -/
theorem Identified.create (identified : table.Identified)
    (created : table.create id now p = .ok (stored, after))
    : after.Identified := by
  rw [Table.create] at created
  split at created
  next => cases created
  next =>
    obtain ⟨-, rfl⟩ := Prod.mk.inj (Except.ok.inj created)
    intro text member
    rw [List.map_append] at member
    rcases List.mem_append.mp member with old | new
    · exact identified text old
    · obtain rfl := List.mem_singleton.mp new
      exact ⟨id, rfl⟩

/-- Whatever is called for, the rows stay under the texts of identifiers, and none of them fails to be
read.
-/
theorem Identified.answer (identified : table.Identified) (turn : Turn)
    : (table.answer turn).2.Identified ∧ ∀ flaw, (table.answer turn).1 ≠ .error (.badId flaw) := by
  rw [Table.answer]
  split
  next p action =>
    split
    next e refused =>
      refine ⟨identified, fun flaw same => ?_⟩
      obtain rfl := Except.error.inj same
      cases create_error refused
    next stored after created =>
      exact ⟨identified.create created, fun flaw same => by cases same⟩
  next id action =>
    refine ⟨identified, fun flaw same => ?_⟩
    rw [get_eq] at same
    cases same
  next filter action =>
    refine ⟨identified, fun flaw same => ?_⟩
    cases listed : table.list filter with
    | error e =>
        rw [listed] at same
        obtain rfl := Except.error.inj same
        cases identified.list_error listed
    | ok found =>
        rw [listed] at same
        cases same
  next p action =>
    refine ⟨?_, fun flaw same => by cases same⟩
    rw [Identified, map_personId_update]
    exact identified
  next id action =>
    refine ⟨?_, fun flaw same => by cases same⟩
    rw [Identified, map_personId_delete]
    exact identified
  next action => exact ⟨identified, fun flaw same => by cases same⟩

/-- No call fails because a row cannot be read, whatever was called for before, by induction on the calls. -/
theorem Identified.answers (identified : table.Identified) (turns : List Turn) (flaw : Uuid.Flaw)
    : .error (.badId flaw) ∉ table.answers turns := by
  induction turns generalizing table with
  | nil => exact List.not_mem_nil
  | cons turn later ih =>
      obtain ⟨kept, reads⟩ := identified.answer turn
      intro member
      rcases List.mem_cons.mp member with same | member
      · exact reads flaw same.symm
      · exact ih kept member

end Table
end PersonRegistry.Store
