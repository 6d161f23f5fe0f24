import PersonRegistry.Proofs.Store.Listing
import PersonRegistry.Proofs.Store.Soundness

/-! The pages of a listing one behind the other. A live person is on one of them if it is as asked for, and
on none of them otherwise.
-/

namespace PersonRegistry

/-- The filter for one page of a listing, behind the pages before it. -/
def Filter.onPage (filter : Filter) (k : Nat) : Filter :=
  { filter with offset := some (k * filter.pageSize) }

theorem Filter.map_fst_asked (filter : Filter) (p : Person)
    : (filter.asked p).map (·.1) = filter.starts := by
  rw [asked, starts, List.map_append, List.map_append]
  cases filter.name <;> cases filter.surname <;> cases filter.patronymic <;> rfl

namespace Store

-----------------------------------------------------------------------------------------
-- Pages of any list
-----------------------------------------------------------------------------------------

section Lists

variable {α β : Type}

/-- Pages one behind the other are a start of the list, by induction on their number. -/
theorem flatMap_pages (elements : List α) (size n : Nat)
    : (List.range n).flatMap (fun k => (elements.drop (k * size)).take size)
      = elements.take (n * size) := by
  induction n with
  | zero => rw [List.range_zero, List.flatMap_nil, Nat.zero_mul, List.take_zero]
  | succ n ih =>
      rw [List.range_succ, List.flatMap_append, ih, List.flatMap_singleton, Nat.succ_mul, List.take_add]

/-- What only one key meets is met by the element of that key alone, by induction on the list. -/
theorem filter_eq_singleton {key : α → β} {elements : List α} (distinct : (elements.map key).Nodup)
    {meets : α → Bool} {a : α} (member : a ∈ elements) (own : meets a = true)
    (others : ∀ b ∈ elements, meets b = true → key b = key a)
    : elements.filter meets = [a] := by
  induction elements with
  | nil => cases member
  | cons first rest ih =>
      obtain ⟨apart, distinct⟩ := List.nodup_cons.mp (List.map_cons ▸ distinct)
      obtain ⟨firstOwn, restOwn⟩ := List.forall_mem_cons.mp others
      rcases List.mem_cons.mp member with rfl | later
      · have none_ : rest.filter meets = [] := by
          refine List.filter_eq_nil_iff.mpr fun b among met => apart ?_
          exact restOwn b among met ▸ List.mem_map_of_mem among
        rw [List.filter_cons_of_pos own, none_]
      · have unmet : ¬meets first = true := fun met =>
          apart (firstOwn met ▸ List.mem_map_of_mem later)
        rw [List.filter_cons_of_neg unmet, ih distinct later restOwn]

end Lists

-----------------------------------------------------------------------------------------
-- The records of a sound table
-----------------------------------------------------------------------------------------

/-- The record that a row holds if it is sound. -/
def Row.entry (row : Row) : Entry :=
  let id := (Uuid.ofText row.personId).toOption.getD .nil
  ⟨id, row.personOf id, !row.isDeleted⟩

theorem Row.entry_of_text {row : Row} {id : Uuid} (same : row.personId = id.text)
    : row.entry = ⟨id, row.personOf id, !row.isDeleted⟩ := by
  rw [entry, same, id.ofText_text]
  rfl

theorem Row.Sound.holds {row : Row} (sound : row.Sound) : row.Holds row.entry := by
  obtain ⟨id, same⟩ := sound.identified
  rw [entry_of_text same]
  exact ⟨same, rfl, sound.nameKey, sound.surnameKey, sound.patronymicKey, (Bool.not_not _).symm⟩

namespace Table

/-- The ledger of what a table holds, in the order of a listing. -/
def recorded (table : Table) : Ledger := ⟨table.ordered.map Row.entry⟩

variable {table : Table} {id : Uuid} {p : Person}

/-- The trial of a live person comes to a pattern that is too long. -/
def stalls (table : Table) (filter : Filter) : Bool :=
  table.recorded.live.any fun p => Ledger.stalls (filter.asked p)

theorem ordered_perm (table : Table) : table.ordered.Perm table.rows := Order.sort_perm _

theorem holds_of_sound {rows : List Row} (sound : ∀ row ∈ rows, row.Sound)
    : List.Forall₂ Row.Holds rows (rows.map Row.entry) := by
  rw [List.forall₂_map_right_iff, List.forall₂_same]
  exact fun row member => (sound row member).holds

theorem Sound.list_eq (sound : table.Sound) (few : table.rows.length ≤ pageBound) (filter : Filter)
    : table.list filter = table.recorded.listingSeen filter := by
  have holds := holds_of_sound fun row member =>
    sound.rows row (table.ordered_perm.mem_iff.mp member)
  exact list_ordered holds few filter

/-- Whoever is live is on record once, since no two rows belong to one identifier. -/
theorem Sound.live_own (sound : table.Sound) (live : table.get id = .ok (some p))
    : table.recorded.live.filter (·.id = some id) = [p] := by
  rw [get_eq] at live
  obtain ⟨row, first, rfl⟩ := Option.map_eq_some_iff.mp (Except.ok.inj live)
  have own : row.isLiveFor id = true := List.find?_some first
  have ordered : table.recorded.live.filter (·.id = some id)
      = (table.ordered.filter (Row.isLiveFor id)).map (·.entry.person) := by
    simp only [Ledger.live, recorded, List.filter_map, List.map_map, List.filter_filter]
    refine congrArg (List.map _) (List.filter_congr fun other member => ?_)
    obtain ⟨otherId, same⟩ := (sound.rows other (table.ordered_perm.mem_iff.mp member)).identified
    have alike : (some otherId = some id) = (otherId.text = id.text) := by
      rw [Option.some.injEq, ← Uuid.text_inj]
    simp only [Function.comp_apply, Row.entry_of_text same, Row.isLiveFor, Row.personOf, same, alike]
    exact Bool.and_comm _ _
  have only : table.ordered.filter (Row.isLiveFor id) = [row] := by
    have distinct : (table.ordered.map (·.personId)).Nodup :=
      (table.ordered_perm.map _).nodup_iff.mpr sound.distinct
    have member := table.ordered_perm.mem_iff.mpr (List.mem_of_find?_eq_some first)
    refine filter_eq_singleton distinct member own fun other _ live => ?_
    rw [Row.personId_of_isLiveFor live, Row.personId_of_isLiveFor own]
  rw [ordered, only, List.map_singleton, Row.entry_of_text (Row.personId_of_isLiveFor own)]

/-- No trial stalls if all patterns are short enough. -/
theorem stalls_of_short {filter : Filter}
    (short : ∀ start ∈ filter.starts, isTooLong (startPattern start) = false) (table : Table)
    : table.stalls filter = false := by
  refine List.any_eq_false.mpr fun p _ => ?_
  have parts : ∀ asked ∈ filter.asked p, isTooLong (startPattern asked.1) = false := by
    intro asked among
    exact short asked.1 (filter.map_fst_asked p ▸ List.mem_map_of_mem among)
  exact ne_true_of_eq_false (stalls_eq_false parts)

/-- No page of a sound table fails if the patterns are short enough, and all pages together hold each live
person that is as asked for once, and no other live person.
-/
theorem Sound.exists_pages (sound : table.Sound) (few : table.rows.length ≤ pageBound)
    {filter : Filter} (short : ∀ start ∈ filter.starts, isTooLong (startPattern start) = false)
    : ∃ pages : Nat → List Person, (∀ k, table.list (filter.onPage k) = .ok (pages k))
        ∧ ∀ n, table.rows.length ≤ n * filter.pageSize → ∀ id p, table.get id = .ok (some p) →
          ((List.range n).flatMap pages).filter (·.id = some id)
            = if filter.accepts startsAsSeen p then [p] else [] := by
  let found := table.recorded.live.filter (filter.accepts startsAsSeen)
  have size : found.length ≤ table.rows.length := by
    refine Nat.le_trans (List.length_filter_le _ _) ?_
    rw [Ledger.live, List.length_map]
    refine Nat.le_trans (List.length_filter_le _ _) ?_
    rw [recorded, List.length_map, table.ordered_perm.length_eq]
  have passes : ∀ k, (table.recorded.live.any fun p => Ledger.stalls ((filter.onPage k).asked p))
      = false := fun k => stalls_of_short short table
  refine ⟨fun k => (found.drop (k * filter.pageSize)).take filter.pageSize, fun k => ?_, ?_⟩
  · rw [sound.list_eq few, Ledger.listingSeen, passes, Bool.and_false, if_neg Bool.false_ne_true]
    rfl
  · intro n enough id p live
    rw [flatMap_pages, List.take_of_length_le (Nat.le_trans size enough), List.filter_filter]
    have swapped : table.recorded.live.filter
          (fun q => decide (q.id = some id) && filter.accepts startsAsSeen q)
        = (table.recorded.live.filter (·.id = some id)).filter (filter.accepts startsAsSeen) := by
      rw [List.filter_filter]
      exact List.filter_congr fun _ _ => Bool.and_comm _ _
    rw [swapped, sound.live_own live, List.filter_singleton]
    cases filter.accepts startsAsSeen p <;> rfl

/-- Filters that every row fulfils alike select the same rows, by induction on the rows. -/
theorem select_congr {filter other : Filter}
    (alike : ∀ row : Row, row.fulfils filter = row.fulfils other)
    (rows : List Row)
    : select filter rows = select other rows := by
  induction rows with
  | nil => rfl
  | cons row rest ih => rw [select, select, alike, ih]

/-- Where no row fulfils a filter, all pages are empty. -/
theorem list_onPage_of_select {filter : Filter} (none_ : select filter table.ordered = .ok []) (k : Nat)
    : table.list (filter.onPage k) = .ok [] := by
  rw [list]
  split
  next => rfl
  next =>
    have alike : ∀ row : Row, row.fulfils (filter.onPage k) = row.fulfils filter := fun _ => rfl
    rw [select_congr alike, none_]
    change List.mapM Row.person (([].drop _).take _) = _
    rw [List.drop_nil, List.take_nil]
    rfl

end Table
end Store
end PersonRegistry
