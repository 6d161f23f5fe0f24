import PersonRegistry.Proofs.Person.Validation
import PersonRegistry.Proofs.Store.Lookups

/-! Tables whose rows are all in order: what each call of the store keeps of them as long as it writes none
but persons in order.
-/

namespace PersonRegistry

open Store (Row Table searchKey)
open Time (Instant)

-----------------------------------------------------------------------------------------
-- What is written
-----------------------------------------------------------------------------------------

/-- A person that may be written: it has no faults, and no empty patronymic. -/
structure Person.Proper (p : Person) : Prop where
  faultless : p.faults = []
  patronymic : p.patronymic ≠ some ""

namespace Store

/-- A row holds a person in order, under an identifier, with the search keys of its own name parts. -/
structure Row.Sound (row : Row) : Prop where
  identified : ∃ id : Uuid, row.personId = id.text
  person : ∃ p, row.person = .ok p ∧ p.faults = [] ∧ p.isEnriched = true ∧ p.patronymic ≠ some ""
  nameKey : row.nameKey = Text.lowercase row.name
  surnameKey : row.surnameKey = Text.lowercase row.surname
  patronymicKey : row.patronymicKey = row.patronymic.map Text.lowercase

namespace Row

variable {row : Row} {id : Uuid} {now : Instant} {p : Person}

theorem sound_ofPerson (proper : p.Proper) : (ofPerson id now p).Sound where
  identified := ⟨id, rfl⟩
  person := by
    refine ⟨{ p with id := some id }, ?_, proper.faultless, ?_, proper.patronymic⟩
    · exact person_of_text rfl
    · exact Person.isEnriched_of_faults proper.faultless
  nameKey := rfl
  surnameKey := rfl
  patronymicKey := rfl

/-- A row that is written over keeps its identifier. -/
theorem Sound.overwritten (sound : row.Sound) (proper : p.Proper)
    : (row.overwritten now p).Sound := by
  obtain ⟨id, same⟩ := sound.identified
  refine ⟨⟨id, same⟩, ⟨{ p with id := some id }, ?_, proper.faultless, ?_, proper.patronymic⟩, rfl,
    rfl, rfl⟩
  · exact person_of_text same
  · exact Person.isEnriched_of_faults proper.faultless

theorem Sound.deleted (sound : row.Sound) : (row.deleted now).Sound := by
  rw [Row.deleted]
  exact ⟨sound.identified, sound.person, sound.nameKey, sound.surnameKey, sound.patronymicKey⟩

end Row

-----------------------------------------------------------------------------------------
-- Tables
-----------------------------------------------------------------------------------------

/-- All rows are sound, and no two belong to the same identifier. -/
structure Table.Sound (table : Table) : Prop where
  rows : ∀ row ∈ table.rows, row.Sound
  distinct : (table.rows.map (·.personId)).Nodup

/-- Every row stands where it stood, under its identifier, and as it was if it was deleted. -/
def Table.Continues (before after : Table) : Prop :=
  ∀ (index : Nat) (row : Row), before.rows[index]? = some row →
    ∃ later, after.rows[index]? = some later ∧ later.personId = row.personId
      ∧ (row.isDeleted = true → later = row)

namespace Table

variable {table after : Table} {id : Uuid} {now : Instant} {p : Person}

theorem Continues.refl (table : Table) : table.Continues table :=
  fun _ row found => ⟨row, found, rfl, fun _ => rfl⟩

theorem Continues.trans {first second third : Table} (left : first.Continues second)
    (right : second.Continues third)
    : first.Continues third := by
  intro index row found
  obtain ⟨later, stands, own, untouched⟩ := left index row found
  obtain ⟨last, standsToo, ownToo, untouchedToo⟩ := right index later stands
  refine ⟨last, standsToo, ownToo.trans own, fun gone => ?_⟩
  obtain rfl := untouched gone
  exact untouchedToo gone

theorem sound_empty : Table.Sound {} := ⟨by simp, by simp⟩

/-- A new row is stored only under an identifier that nobody has. -/
theorem distinct_create {stored : Person} (distinct : (table.rows.map (·.personId)).Nodup)
    (created : table.create id now p = .ok (stored, after))
    : (after.rows.map (·.personId)).Nodup := by
  rw [Table.create] at created
  split at created
  next => cases created
  next fresh =>
    obtain ⟨-, rfl⟩ := Prod.mk.inj (Except.ok.inj created)
    rw [List.map_append, List.nodup_append]
    refine ⟨distinct, by simp, ?_⟩
    intro text old other new same
    obtain ⟨row, member, rfl⟩ := List.mem_map.mp old
    obtain rfl : other = id.text := by simpa [Row.ofPerson] using new
    exact fresh (List.any_eq_true.mpr ⟨row, member, decide_eq_true same⟩)

/-- Rows that keep their identifiers when they are changed leave the identifiers as they are. -/
theorem map_personId_changed {change : Row → Row}
    (own : ∀ row, (change row).personId = row.personId) (rows : List Row)
    : (rows.map fun row => if row.isLiveFor id then change row else row).map (·.personId)
      = rows.map (·.personId) := by
  rw [List.map_map]
  refine List.map_congr_left fun row _ => ?_
  simp only [Function.comp_def]
  split
  next => exact own row
  next => rfl

theorem map_personId_update (table : Table) (now : Instant) (p : Person)
    : (table.update now p).2.rows.map (·.personId) = table.rows.map (·.personId) := by
  rw [Table.update]
  split
  next => rfl
  next id _ =>
    split
    next => exact map_personId_changed (fun row => row.personId_overwritten now p) table.rows
    next => rfl

theorem map_personId_delete (table : Table) (now : Instant) (id : Uuid)
    : (table.delete now id).2.rows.map (·.personId) = table.rows.map (·.personId) :=
  map_personId_changed (fun row => row.personId_deleted now) table.rows

/-- A new row comes behind all others, under an identifier that nobody has. -/
theorem Sound.create {stored : Person} (sound : table.Sound) (proper : p.Proper)
    (created : table.create id now p = .ok (stored, after))
    : after.Sound ∧ table.Continues after := by
  have distinct := distinct_create sound.distinct created
  rw [Table.create] at created
  split at created
  next => cases created
  next =>
    obtain ⟨-, rfl⟩ := Prod.mk.inj (Except.ok.inj created)
    refine ⟨⟨fun row member => ?_, distinct⟩, fun index row found => ?_⟩
    · rcases List.mem_append.mp member with old | new
      · exact sound.rows row old
      · obtain rfl := List.mem_singleton.mp new
        exact Row.sound_ofPerson proper
    · have short : index < table.rows.length := (List.getElem?_eq_some_iff.mp found).1
      exact ⟨row, by rw [List.getElem?_append_left short, found], rfl, fun _ => rfl⟩

/-- Rows changed where they are live for one identifier stay sound, and deleted rows are left alone. -/
theorem Sound.changed (sound : table.Sound) (change : Row → Row)
    (own : ∀ row, (change row).personId = row.personId)
    (sounds : ∀ row : Row, row.Sound → (change row).Sound)
    : let after : Table :=
        ⟨table.rows.map fun row => if row.isLiveFor id then change row else row⟩
      after.Sound ∧ table.Continues after := by
  refine ⟨⟨fun row member => ?_, ?_⟩, fun index row found => ?_⟩
  · obtain ⟨old, stood, rfl⟩ := List.mem_map.mp member
    split
    next => exact sounds old (sound.rows old stood)
    next => exact sound.rows old stood
  · rw [map_personId_changed own]
    exact sound.distinct
  · refine ⟨if row.isLiveFor id then change row else row, ?_, ?_, fun gone => ?_⟩
    · rw [List.getElem?_map, found, Option.map_some]
    · split
      next => exact own row
      next => rfl
    · have dead : ¬row.isLiveFor id = true := by simp [Row.isLiveFor, gone]
      rw [if_neg dead]

theorem Sound.update (sound : table.Sound) (proper : p.Proper) (now : Instant)
    : (table.update now p).2.Sound ∧ table.Continues (table.update now p).2 := by
  rw [Table.update]
  split
  next => exact ⟨sound, .refl table⟩
  next id _ =>
    split
    next =>
      exact sound.changed (·.overwritten now p) (fun row => row.personId_overwritten now p)
        fun _ sound => sound.overwritten proper
    next => exact ⟨sound, .refl table⟩

theorem Sound.delete (sound : table.Sound) (id : Uuid)
    : (table.delete now id).2.Sound ∧ table.Continues (table.delete now id).2 :=
  sound.changed (·.deleted now) (fun row => row.personId_deleted now) fun _ sound => sound.deleted

/-- A person that is got from a sound table is in order. -/
theorem Sound.proper_of_get (sound : table.Sound) (found : table.get id = .ok (some p)) : p.Proper := by
  rw [get_eq] at found
  obtain ⟨row, first, rfl⟩ := Option.map_eq_some_iff.mp (Except.ok.inj found)
  obtain ⟨q, read, faultless, -, patronymic⟩ :=
    (sound.rows row (List.mem_of_find?_eq_some first)).person
  have own := Row.person_of_text (Row.personId_of_isLiveFor (List.find?_some first))
  obtain rfl := Except.ok.inj (own.symm.trans read)
  exact ⟨faultless, patronymic⟩

end Table
end Store
end PersonRegistry
