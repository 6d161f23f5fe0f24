import PersonRegistry.Proofs.Identifiers
import PersonRegistry.Store.Table

/-! What the table answers for an identifier, before and after its other calls. -/

namespace PersonRegistry.Store

open Time (Instant)

variable {table : Table} {id other : Uuid} {now : Instant}

-----------------------------------------------------------------------------------------
-- Rows
-----------------------------------------------------------------------------------------

namespace Row

@[simp] theorem personId_overwritten (row : Row) (now : Instant) (p : Person)
    : (row.overwritten now p).personId = row.personId := by
  rw [overwritten]

@[simp] theorem createdAt_overwritten (row : Row) (now : Instant) (p : Person)
    : (row.overwritten now p).createdAt = row.createdAt := by
  rw [overwritten]

@[simp] theorem personId_deleted (row : Row) (now : Instant)
    : (row.deleted now).personId = row.personId := by
  rw [deleted]

@[simp] theorem createdAt_deleted (row : Row) (now : Instant)
    : (row.deleted now).createdAt = row.createdAt := by
  rw [deleted]

def personOf (row : Row) (id : Uuid) : Person where
  id := some id
  name := row.name
  surname := row.surname
  patronymic := row.patronymic
  age := row.age
  gender := row.gender
  nationality := row.nationality

theorem person_of_text {row : Row} (same : row.personId = id.text)
    : row.person = .ok (row.personOf id) := by
  rw [person, same, id.ofText_text]
  rfl

theorem personId_of_isLiveFor {row : Row} (live : row.isLiveFor id = true)
    : row.personId = id.text := by
  simp only [isLiveFor, Bool.and_eq_true, decide_eq_true_eq] at live
  exact live.2

theorem personOf_overwritten (row : Row) (now : Instant) {p : Person} (own : p.id = some id)
    : (row.overwritten now p).personOf id = p := by
  rw [personOf, ← own]
  rfl

/-- A row belongs to one identifier, since texts tell identifiers apart. -/
theorem isLiveFor_other {row : Row} (live : row.isLiveFor id = true) (unlike : other ≠ id)
    : row.isLiveFor other = false := by
  cases second : row.isLiveFor other with
  | false => rfl
  | true =>
      have same := (personId_of_isLiveFor second).symm.trans (personId_of_isLiveFor live)
      exact absurd (Uuid.text_injective same) unlike

end Row

-----------------------------------------------------------------------------------------
-- Single persons
-----------------------------------------------------------------------------------------

namespace Table

/-- A row found by its identifier can always be read. -/
theorem get_eq (table : Table) (id : Uuid)
    : table.get id
      = .ok ((table.rows.find? (Row.isLiveFor id)).map fun row => row.personOf id) := by
  rw [get]
  cases found : table.rows.find? (Row.isLiveFor id) with
  | none => rfl
  | some row =>
      have live := List.find?_some found
      simp [Row.person_of_text (Row.personId_of_isLiveFor live), Except.map]

theorem id_of_get {p : Person} (found : table.get id = .ok (some p)) : p.id = some id := by
  rw [get_eq] at found
  obtain ⟨row, -, rfl⟩ := Option.map_eq_some_iff.mp (Except.ok.inj found)
  rfl

/-- Someone is live exactly if the row of the identifier can be got. -/
theorem any_isLiveFor_iff
    : table.rows.any (Row.isLiveFor id) = true ↔ ∃ p, table.get id = .ok (some p) := by
  have found : table.rows.any (Row.isLiveFor id) = true
      ↔ ∃ row, table.rows.find? (Row.isLiveFor id) = some row := by
    rw [← Option.isSome_iff_exists, List.find?_isSome, List.any_eq_true]
  rw [get_eq, found]
  constructor
  · rintro ⟨row, found⟩
    exact ⟨row.personOf id, by rw [found]; rfl⟩
  · rintro ⟨p, same⟩
    obtain ⟨row, found, -⟩ := Option.map_eq_some_iff.mp (Except.ok.inj same)
    exact ⟨row, found⟩

theorem id_of_create {p stored : Person} {after : Table}
    (created : table.create id now p = .ok (stored, after))
    : stored.id = some id := by
  rw [create] at created
  split at created
  next => cases created
  next =>
    obtain ⟨rfl, -⟩ := Prod.mk.inj (Except.ok.inj created)
    rfl

/-- An identifier that someone has is not given again. -/
theorem ne_of_create {p stored found : Person} {after : Table}
    (created : table.create other now p = .ok (stored, after))
    (live : table.get id = .ok (some found))
    : id ≠ other := by
  rintro rfl
  rw [create] at created
  split at created
  next => cases created
  next fresh =>
    obtain ⟨row, member, own⟩ := List.any_eq_true.mp (any_isLiveFor_iff.mpr ⟨found, live⟩)
    have text := Row.personId_of_isLiveFor own
    exact fresh (List.any_eq_true.mpr ⟨row, member, decide_eq_true text⟩)

/-- A new person is found under its identifier, and nobody else is found or lost. -/
theorem get_create {p stored : Person} {after : Table} {found : Option Person}
    (created : table.create other now p = .ok (stored, after))
    (before : table.get id = .ok found)
    : after.get id = .ok (if id = other then some stored else found) := by
  rw [create] at created
  split at created
  next => cases created
  next fresh =>
    obtain ⟨rfl, rfl⟩ := Prod.mk.inj (Except.ok.inj created)
    rw [get_eq] at before ⊢
    obtain rfl := Except.ok.inj before
    rw [List.find?_append]
    by_cases same : id = other
    · subst same
      have missing : table.rows.find? (Row.isLiveFor id) = none := by
        rw [List.find?_eq_none]
        intro row member live
        have text := Row.personId_of_isLiveFor live
        exact fresh (List.any_eq_true.mpr ⟨row, member, decide_eq_true text⟩)
      have live : (Row.ofPerson id now p).isLiveFor id = true := by simp [Row.isLiveFor, Row.ofPerson]
      rw [missing, Option.none_or, List.find?_cons_of_pos live, if_pos rfl]
      rfl
    · have unlike : (Row.ofPerson other now p).isLiveFor id = false := by
        have apart : other.text ≠ id.text := fun text => same (Uuid.text_injective text).symm
        simp [Row.isLiveFor, Row.ofPerson, apart]
      simp [same, unlike]

/-- Rows changed for one identifier are found as before for every other, by induction on the rows. -/
theorem find?_changed (change : Row → Row) (unlike : other ≠ id)
    (keeps : ∀ row, (change row).personId = row.personId) (rows : List Row)
    : (rows.map fun row => if row.isLiveFor id then change row else row).find?
        (Row.isLiveFor other)
      = rows.find? (Row.isLiveFor other) := by
  induction rows with
  | nil => rfl
  | cons row rest ih =>
      rw [List.map_cons, List.find?_cons, List.find?_cons, ih]
      cases live : row.isLiveFor id with
      | false => simp
      | true =>
          have changed : (change row).isLiveFor other = false := by
            have text := Row.personId_of_isLiveFor live
            simp only [Row.isLiveFor, keeps, text, Bool.and_eq_false_iff, decide_eq_false_iff_not]
            exact Or.inr fun same => unlike (Uuid.text_injective same.symm)
          simp [changed, Row.isLiveFor_other live unlike]

/-- A write that finds no live person changes nothing. -/
theorem update_of_none {p : Person} (missed : (table.update now p).1 = none)
    : (table.update now p).2 = table := by
  rw [update] at missed ⊢
  cases written : p.id with
  | none => rfl
  | some id =>
      rw [written] at missed
      simp only at missed ⊢
      split at missed
      next => cases missed
      next missing => simp only [missing, if_false, Bool.false_eq_true]

/-- Only a person that has an identifier is written, and as it is. -/
theorem person_of_update {p written : Person} (updated : (table.update now p).1 = some written)
    : (∃ id, p.id = some id) ∧ written = p := by
  rw [update] at updated
  split at updated
  next => cases updated
  next id own =>
    split at updated
    next => exact ⟨⟨id, own⟩, (Option.some.inj updated).symm⟩
    next => cases updated

theorem delete_of_false (missed : (table.delete now id).1 = false)
    : (table.delete now id).2 = table := by
  simp only [delete, List.any_eq_false] at missed ⊢
  have same : (table.rows.map fun row => if row.isLiveFor id then row.deleted now else row)
      = table.rows := by
    refine (List.map_congr_left fun row member => ?_).trans (List.map_id _)
    exact if_neg (missed row member)
  rw [same]

/-- Rows that stay live for an identifier are found as they are changed, by induction on the rows. -/
theorem find?_changed_self (change : Row → Row)
    (lives : ∀ row : Row, row.isLiveFor id = true → (change row).isLiveFor id = true)
    (rows : List Row)
    : (rows.map fun row => if row.isLiveFor id then change row else row).find? (Row.isLiveFor id)
      = (rows.find? (Row.isLiveFor id)).map change := by
  induction rows with
  | nil => rfl
  | cons row rest ih =>
      rw [List.map_cons, List.find?_cons, List.find?_cons, ih]
      cases live : row.isLiveFor id with
      | false => simp [live]
      | true => simp [lives row live]

/-- A person that was written is found as it was written, and everyone else as before. -/
theorem get_update {p written : Person} {found : Option Person} (own : p.id = some other)
    (updated : (table.update now p).1 = some written) (before : table.get id = .ok found)
    : (table.update now p).2.get id = .ok (if id = other then some written else found) := by
  simp only [update, own] at updated ⊢
  split at updated
  next live =>
    obtain rfl := Option.some.inj updated
    rw [get_eq] at before ⊢
    obtain rfl := Except.ok.inj before
    simp only [live, if_true]
    by_cases same : id = other
    · subst same
      obtain ⟨row, found⟩ : ∃ row, table.rows.find? (Row.isLiveFor id) = some row := by
        rw [← Option.isSome_iff_exists, List.find?_isSome, ← List.any_eq_true]
        exact live
      rw [find?_changed_self (·.overwritten now p) (fun _ live => live), found]
      simp [row.personOf_overwritten now own]
    · rw [find?_changed (·.overwritten now p) same fun _ => rfl]
      simp [same]
  next => cases updated

/-- A deleted person is not found, and everyone else as before. -/
theorem get_delete {found : Option Person} (before : table.get id = .ok found)
    : (table.delete now other).2.get id = .ok (if id = other then none else found) := by
  rw [get_eq] at before ⊢
  obtain rfl := Except.ok.inj before
  simp only [delete]
  by_cases same : id = other
  · subst same
    have missing : (table.rows.map fun row =>
          if row.isLiveFor id then row.deleted now else row).find? (Row.isLiveFor id) = none := by
      rw [List.find?_eq_none]
      intro row member
      obtain ⟨old, -, rfl⟩ := List.mem_map.mp member
      by_cases live : old.isLiveFor id = true
      · rw [if_pos live]
        simp [Row.isLiveFor, Row.deleted]
      · rw [if_neg live]
        exact live
    simp [missing]
  · rw [find?_changed (·.deleted now) same fun _ => rfl]
    simp [same]

end Table
end PersonRegistry.Store
