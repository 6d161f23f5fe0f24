import PersonRegistry.Proofs.Store.Paging

/-! Whom a filter matches, whatever page is asked for. It matches nobody at all if the trial of a live person
comes to a pattern that is too long. An empty start of a name part matches whoever has that part: for a name
or a surname it asks for nothing, for a patronymic that there is one.
-/

namespace PersonRegistry

namespace Filter

/-- The filter for a page of another size and start. -/
def paged (filter : Filter) (limit offset : Option Nat) : Filter := { filter with limit, offset }

/-- The page that a filter asks for; a size or start beyond the bound of the table counts as that bound. -/
def cut (filter : Filter) (found : List Person) : List Person :=
  (found.drop (min filter.pageStart Store.Table.pageBound)).take
    (min filter.pageSize Store.Table.pageBound)

end Filter

namespace Store

variable {filter other : Filter}

-----------------------------------------------------------------------------------------
-- The trial of one row
-----------------------------------------------------------------------------------------

/-- An empty start matches every key that is there. -/
theorem keyCondition_empty (key : Option String)
    : keyCondition (some (startPattern "")) key = .ok key.isSome := by
  have parts : patternParts (visiblePart (startPattern "").toList) = [.run] := by decide +kernel
  have matched : isLike (startPattern "") = fun _ => true := by
    funext text
    rw [isLike, parts, matchesParts_run]
  have short : ¬isTooLong (startPattern "") = true := by decide +kernel
  rw [keyCondition, if_neg short, matched]
  cases key <;> rfl

/-- What is asked for besides some conditions is asked for besides the first of them. -/
theorem andThen_map (condition others : Except Error Bool) (held : Bool)
    : andThen condition (others.map (· && held)) = (andThen condition others).map (· && held) := by
  cases condition with
  | error e => rfl
  | ok met => cases met <;> rfl

namespace Row

theorem live_of_fulfils {row : Row} (fulfilled : row.fulfils filter = .ok true)
    : row.isDeleted = false := by
  cases deleted : row.isDeleted with
  | false => rfl
  | true =>
      rw [fulfils, deleted] at fulfilled
      cases fulfilled

theorem fulfils_name_empty (unasked : filter.name = none) (row : Row)
    : row.fulfils { filter with name := some "" } = row.fulfils filter := by
  simp only [fulfils, unasked, Option.map_some, keyCondition_empty]
  rfl

theorem fulfils_surname_empty (unasked : filter.surname = none) (row : Row)
    : row.fulfils { filter with surname := some "" } = row.fulfils filter := by
  simp only [fulfils, unasked, Option.map_some, keyCondition_empty]
  rfl

/-- The key of a patronymic is tried after all that may fail. -/
theorem fulfils_patronymic_empty (unasked : filter.patronymic = none) (row : Row)
    : row.fulfils { filter with patronymic := some "" }
      = (row.fulfils filter).map (· && row.patronymicKey.isSome) := by
  let fields : Bool := fieldCondition filter.age row.age && fieldCondition filter.gender row.gender
    && fieldCondition filter.nationality row.nationality
  let parts (others : Except Error Bool) : Except Error Bool :=
    andThen (keyCondition (filter.name.map startPattern) (some row.nameKey))
      (andThen (keyCondition (filter.surname.map startPattern) (some row.surnameKey)) others)
  have without : row.fulfils filter = if row.isDeleted then .ok false else parts (.ok fields) := by
    rw [fulfils, unasked]
    rfl
  have within : row.fulfils { filter with patronymic := some "" }
      = if row.isDeleted then .ok false
        else parts (andThen (.ok row.patronymicKey.isSome) (.ok fields)) := by
    rw [← keyCondition_empty]
    rfl
  have last : andThen (.ok row.patronymicKey.isSome) (.ok fields)
      = (Except.ok fields).map (· && row.patronymicKey.isSome) := by
    cases row.patronymicKey.isSome with
    | false => exact congrArg Except.ok (Bool.and_false fields).symm
    | true => exact congrArg Except.ok (Bool.and_true fields).symm
  rw [within, without, last]
  cases row.isDeleted with
  | true => rfl
  | false => simp only [parts, andThen_map]; rfl

end Row

-----------------------------------------------------------------------------------------
-- All rows
-----------------------------------------------------------------------------------------

namespace Table

variable {table : Table}

/-- What each row must be besides is what the rows that are selected must be, by induction on the rows. -/
theorem select_and {also : Row → Bool}
    (alike : ∀ row : Row, row.fulfils other = (row.fulfils filter).map (· && also row))
    (rows : List Row)
    : select other rows = (select filter rows).map (List.filter also) := by
  induction rows with
  | nil => rfl
  | cons row rest ih =>
      rw [select, select, alike, ih]
      cases row.fulfils filter with
      | error e => rfl
      | ok held =>
          cases select filter rest with
          | error e => rfl
          | ok found =>
              cases held with
              | false => rfl
              | true =>
                  refine congrArg Except.ok ?_
                  simp only [if_true, Bool.true_and, List.filter_cons]

/-- Whatever is selected is among the rows and fulfils the filter, by induction on the rows. -/
theorem forall_of_select {rows found : List Row} (selected : select filter rows = .ok found)
    : ∀ row ∈ found, row ∈ rows ∧ row.fulfils filter = .ok true := by
  induction rows generalizing found with
  | nil =>
      obtain rfl := Except.ok.inj selected
      exact fun row member => by cases member
  | cons first rest ih =>
      rw [select] at selected
      cases trial : first.fulfils filter with
      | error e => rw [trial] at selected; cases selected
      | ok held =>
          cases more : select filter rest with
          | error e => rw [trial, more] at selected; cases selected
          | ok later =>
              rw [trial, more] at selected
              have others : ∀ row ∈ later, row ∈ first :: rest ∧ row.fulfils filter = .ok true :=
                fun row member => (ih more row member).imp_left (List.mem_cons_of_mem first)
              cases held with
              | false =>
                  obtain rfl := Except.ok.inj selected
                  exact others
              | true =>
                  obtain rfl := Except.ok.inj selected
                  exact List.forall_mem_cons.mpr ⟨⟨List.mem_cons_self, trial⟩, others⟩

/-- The persons that fulfil a filter, in the order of a listing, whatever page of them is asked for. -/
def matching (table : Table) (filter : Filter) : Except Error (List Person) :=
  (select filter table.ordered).map (List.map fun row => row.entry.person)

theorem Sound.of_select (sound : table.Sound) {found : List Row}
    (selected : select filter table.ordered = .ok found)
    : ∀ row ∈ found, row.Sound :=
  fun row member => sound.rows row
    (table.ordered_perm.mem_iff.mp (forall_of_select selected row member).1)

/-- A listing of a sound table is a page of the persons that the filter matches. -/
theorem Sound.list_eq_cut (sound : table.Sound) (some_ : filter.pageSize ≠ 0)
    : table.list filter = (table.matching filter).map filter.cut := by
  rw [list, if_neg some_, matching]
  cases selected : select filter table.ordered with
  | error e => rfl
  | ok found =>
      have holds := holds_of_sound (sound.of_select selected)
      refine (mapM_person (List.forall₂_take _ (List.forall₂_drop _ holds))).trans ?_
      rw [← List.map_drop, ← List.map_take, List.map_map]
      refine congrArg Except.ok ?_
      rw [Filter.cut, ← List.map_drop, ← List.map_take]
      rfl

-----------------------------------------------------------------------------------------
-- Whom a filter matches
-----------------------------------------------------------------------------------------

/-- A filter by which no trial stalls matches the live persons that are as it asks for. -/
theorem Sound.matching_eq (sound : table.Sound) (filter : Filter)
    : table.matching filter
      = if table.stalls filter then .error .patternTooLong
        else .ok (table.recorded.live.filter (filter.accepts startsAsSeen)) := by
  have trials := select_holds (holds_of_sound fun row member =>
    sound.rows row (table.ordered_perm.mem_iff.mp member)) filter
  rw [stalls, Ledger.any_live, Ledger.filter_live, matching, recorded]
  split at trials
  next stalled => rw [if_pos stalled, trials]; rfl
  next passed =>
    obtain ⟨found, selected, matched⟩ := trials
    rw [if_neg passed, selected]
    -- the rows that are found are read as either list of records
    have read := (mapM_person (holds_of_sound (sound.of_select selected))).symm.trans
      (mapM_person matched)
    refine congrArg Except.ok (Eq.trans ?_ (Except.ok.inj read))
    exact (List.map_map ..).symm

/-- A name that is too long stalls the trial of anyone. -/
theorem stalls_of_long {name : String} (asked : filter.name = some name)
    (long : isTooLong (startPattern name) = true) (table : Table)
    : table.stalls filter = !table.recorded.live.isEmpty := by
  have each : ∀ p, Ledger.stalls (filter.asked p) = true := by
    intro p
    rw [Filter.asked, asked]
    exact Bool.or_eq_true_iff.mpr (.inl long)
  rw [stalls]
  cases table.recorded.live with
  | nil => rfl
  | cons p rest => rw [List.any_cons, each]; rfl

theorem list_name_empty (unasked : filter.name = none) (table : Table)
    : table.list { filter with name := some "" } = table.list filter := by
  rw [list, list, select_congr (Row.fulfils_name_empty unasked)]
  rfl

theorem list_surname_empty (unasked : filter.surname = none) (table : Table)
    : table.list { filter with surname := some "" } = table.list filter := by
  rw [list, list, select_congr (Row.fulfils_surname_empty unasked)]
  rfl

theorem matching_paged (table : Table) (filter : Filter) (limit offset : Option Nat)
    : table.matching (filter.paged limit offset) = table.matching filter := by
  have alike : ∀ row : Row, row.fulfils (filter.paged limit offset) = row.fulfils filter := fun _ => rfl
  rw [matching, matching, select_congr alike]

/-- An empty start of a patronymic drops whoever has none. -/
theorem Sound.matching_patronymic_empty (sound : table.Sound) (unasked : filter.patronymic = none)
    : table.matching { filter with patronymic := some "" }
      = (table.matching filter).map (List.filter (·.patronymic.isSome)) := by
  rw [matching, matching, select_and (Row.fulfils_patronymic_empty unasked)]
  cases selected : select filter table.ordered with
  | error e => rfl
  | ok found =>
      refine congrArg Except.ok ?_
      rw [List.filter_map]
      refine congrArg (List.map _) (List.filter_congr fun row member => ?_)
      rw [(sound.of_select selected row member).patronymicKey, Option.isSome_map]
      rfl

/-- Where all live rows have a patronymic, so has whoever fulfils a filter. -/
theorem isSome_of_matching (all : ∀ row ∈ table.rows, row.isDeleted = false → row.patronymic.isSome = true)
    {found : List Person} (matched : table.matching filter = .ok found)
    : ∀ p ∈ found, p.patronymic.isSome = true := by
  rw [matching] at matched
  cases selected : select filter table.ordered with
  | error e => rw [selected] at matched; cases matched
  | ok rows =>
      rw [selected] at matched
      obtain rfl := Except.ok.inj matched
      refine List.forall_mem_map.mpr fun row member => ?_
      obtain ⟨among, fulfilled⟩ := forall_of_select selected row member
      exact all row (table.ordered_perm.mem_iff.mp among) (Row.live_of_fulfils fulfilled)

end Table
end Store
end PersonRegistry
