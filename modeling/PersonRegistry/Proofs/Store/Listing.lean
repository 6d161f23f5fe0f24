import Mathlib.Data.List.Forall2
import PersonRegistry.Proofs.Store.Ledger
import PersonRegistry.Proofs.Store.Lookups

/-! A listing of the table is a listing of the ledger whose records its rows hold, in the same order. -/

namespace PersonRegistry

-----------------------------------------------------------------------------------------
-- Rows in order
-----------------------------------------------------------------------------------------

namespace Order

variable {α : Type} {le : α → α → Bool}

theorem insert_perm (a : α) (elements : List α) : (insert le a elements).Perm (a :: elements) := by
  induction elements with
  | nil => exact .refl _
  | cons b rest ih =>
      rw [insert]
      split
      next => exact .refl _
      next => exact (ih.cons b).trans (.swap a b rest)

theorem sort_perm (elements : List α) : (sort le elements).Perm elements := by
  induction elements with
  | nil => exact .refl _
  | cons a rest ih => exact (insert_perm a _).trans (ih.cons a)

/-- What is in order already stays as it is, by induction from the end. -/
theorem sort_eq_self {elements : List α} (sorted : elements.Pairwise (le · ·))
    : sort le elements = elements := by
  induction elements with
  | nil => rfl
  | cons a rest ih =>
      obtain ⟨first, sorted⟩ := List.pairwise_cons.mp sorted
      rw [sort, ih sorted]
      cases rest with
      | nil => rfl
      | cons b more => rw [insert, if_pos (first b List.mem_cons_self)]

end Order

namespace Store

/-- A page is the same with its bounds cut to what the table takes, if there are no more rows than that. -/
theorem page_within {α : Type} {elements : List α} (few : elements.length ≤ Table.pageBound)
    (start size : Nat)
    : (elements.drop (min start Table.pageBound)).take (min size Table.pageBound)
      = (elements.drop start).take size := by
  have dropped : elements.drop (min start Table.pageBound) = elements.drop start := by
    rcases Nat.le_total start Table.pageBound with within | beyond
    · rw [Nat.min_eq_left within]
    · rw [Nat.min_eq_right beyond, List.drop_of_length_le few,
        List.drop_of_length_le (Nat.le_trans few beyond)]
  have short : (elements.drop start).length ≤ Table.pageBound := by
    rw [List.length_drop]
    exact Nat.le_trans (Nat.sub_le _ _) few
  rw [dropped]
  rcases Nat.le_total size Table.pageBound with within | beyond
  · rw [Nat.min_eq_left within]
  · rw [Nat.min_eq_right beyond, List.take_of_length_le short,
      List.take_of_length_le (Nat.le_trans short beyond)]

-----------------------------------------------------------------------------------------
-- The trial of one row
-----------------------------------------------------------------------------------------

/-- What the trial of a person comes to, by the name parts asked for and what the other fields say. -/
def verdict (parts : List (String × Option String)) (fields : Bool) : Except Error Bool :=
  if Ledger.stalls parts then .error .patternTooLong
  else .ok (parts.all (fun asked => asked.2.any (startsAsSeen asked.1)) && fields)

/-- One condition, and those after it if it holds. -/
def andThen (condition others : Except Error Bool) : Except Error Bool :=
  condition >>= fun held => if held then others else .ok false

/-- The first part decides whether the trial goes on. -/
theorem keyCondition_andThen (start part : Option String) (rest : List (String × Option String))
    (fields : Bool)
    : andThen (keyCondition (start.map startPattern) (part.map searchKey)) (verdict rest fields)
      = verdict ((start.map (·, part)).toList ++ rest) fields := by
  cases start with
  | none => rfl
  | some start =>
      have matched : (part.map searchKey).any (isLike (startPattern start))
          = part.any (startsAsSeen start) := by
        rw [Option.any_map]
        exact congrArg part.any (funext (isLike_startPattern start))
      simp only [andThen, keyCondition, Option.map_some, matched, Option.toList_some, List.singleton_append, verdict,
        Ledger.stalls, List.all_cons]
      cases isTooLong (startPattern start) with
      | true => rfl
      | false => cases part.any (startsAsSeen start) <;> rfl

/-- A trial passes by all patterns that are short enough, by induction on the parts. -/
theorem stalls_eq_false {parts : List (String × Option String)}
    (short : ∀ asked ∈ parts, isTooLong (startPattern asked.1) = false)
    : Ledger.stalls parts = false := by
  induction parts with
  | nil => rfl
  | cons asked rest ih =>
      obtain ⟨first, others⟩ := List.forall_mem_cons.mp short
      rw [Ledger.stalls, first, ih others, Bool.and_false]
      rfl

theorem fieldCondition_eq {α : Type} [DecidableEq α] (wanted value : Option α)
    : fieldCondition wanted value = wanted.all (value = some ·) := by
  cases wanted <;> rfl

/-- A row holds a record: the person, under the text of the identifier and with its own search keys. -/
structure Row.Holds (row : Row) (entry : Entry) : Prop where
  personId : row.personId = entry.id.text
  person : row.personOf entry.id = entry.person
  nameKey : row.nameKey = searchKey row.name
  surnameKey : row.surnameKey = searchKey row.surname
  patronymicKey : row.patronymicKey = row.patronymic.map searchKey
  isDeleted : row.isDeleted = !entry.isLive

/-- The trial of a row is that of its record. -/
theorem Row.Holds.fulfils {row : Row} {entry : Entry} (holds : row.Holds entry) (filter : Filter)
    : row.fulfils filter
      = if entry.isLive && Ledger.stalls (filter.asked entry.person) then .error .patternTooLong
        else .ok (entry.isLive && filter.accepts startsAsSeen entry.person) := by
  let fields : Bool := fieldCondition filter.age row.age && fieldCondition filter.gender row.gender
    && fieldCondition filter.nationality row.nationality
  have stages : row.fulfils filter
      = if row.isDeleted then .ok false
        else
          andThen (keyCondition (filter.name.map startPattern) ((some row.name).map searchKey))
            (andThen (keyCondition (filter.surname.map startPattern) ((some row.surname).map searchKey))
              (andThen (keyCondition (filter.patronymic.map startPattern) (row.patronymic.map searchKey))
                (verdict [] fields))) := by
    rw [← holds.patronymicKey, Option.map_some, Option.map_some, ← holds.nameKey, ← holds.surnameKey]
    rfl
  rw [stages, keyCondition_andThen, keyCondition_andThen, keyCondition_andThen, holds.isDeleted]
  cases entry.isLive with
  | false => rfl
  | true =>
      have parts : (filter.name.map (·, some row.name)).toList
            ++ ((filter.surname.map (·, some row.surname)).toList
              ++ ((filter.patronymic.map (·, row.patronymic)).toList ++ []))
          = filter.asked entry.person := by
        rw [← holds.person, List.append_nil, ← List.append_assoc]
        rfl
      have same : fields
          = (filter.age.all (entry.person.age = some ·)
            && filter.gender.all (entry.person.gender = some ·)
            && filter.nationality.all (entry.person.nationality = some ·)) := by
        rw [← holds.person]
        simp only [fields, fieldCondition_eq]
        rfl
      rw [parts, same, verdict, Filter.accepts, Bool.true_and, Bool.true_and]
      simp only [Bool.not_true, Bool.false_eq_true, if_false, Bool.and_assoc]

-----------------------------------------------------------------------------------------
-- All rows
-----------------------------------------------------------------------------------------

variable {rows : List Row} {entries : List Entry}

/-- The rows that are found hold the records that are as asked for, unless a trial comes to a pattern that
is too long, by induction on the rows.
-/
theorem select_holds (holds : List.Forall₂ Row.Holds rows entries) (filter : Filter)
    : if entries.any fun entry => entry.isLive && Ledger.stalls (filter.asked entry.person) then
        Table.select filter rows = .error .patternTooLong
      else
        ∃ found, Table.select filter rows = .ok found
          ∧ List.Forall₂ Row.Holds found
            (entries.filter fun entry => entry.isLive && filter.accepts startsAsSeen entry.person) := by
  induction holds with
  | nil => exact ⟨[], rfl, .nil⟩
  | @cons row entry rows entries first _ ih =>
      have trial := first.fulfils filter
      rw [List.any_cons, Table.select]
      cases stalled : entry.isLive && Ledger.stalls (filter.asked entry.person) with
      | true =>
          rw [stalled, if_pos rfl] at trial
          rw [Bool.true_or, if_pos rfl, trial]
          rfl
      | false =>
          rw [stalled, if_neg Bool.false_ne_true] at trial
          rw [Bool.false_or, trial]
          split at ih
          next later => rw [if_pos later, ih]; rfl
          next passed =>
            obtain ⟨found, selected, rest⟩ := ih
            rw [if_neg passed, selected, List.filter_cons]
            cases entry.isLive && filter.accepts startsAsSeen entry.person with
            | false => exact ⟨found, rfl, rest⟩
            | true => exact ⟨row :: found, rfl, .cons first rest⟩

/-- Rows are read as the persons of their records. -/
theorem mapM_person (holds : List.Forall₂ Row.Holds rows entries)
    : rows.mapM Row.person = .ok (entries.map (·.person)) := by
  induction holds with
  | nil => rfl
  | cons first _ ih =>
      rw [List.mapM_cons, Row.person_of_text first.personId, ih, first.person]
      rfl

theorem Ledger.any_live (ledger : Ledger) (meets : Person → Bool)
    : ledger.live.any meets = ledger.entries.any fun entry => entry.isLive && meets entry.person := by
  rw [live, List.any_map, List.any_filter]
  rfl

theorem Ledger.filter_live (ledger : Ledger) (meets : Person → Bool)
    : ledger.live.filter meets
      = (ledger.entries.filter fun entry => entry.isLive && meets entry.person).map (·.person) := by
  rw [live, List.filter_map, List.filter_filter]
  exact congrArg (List.map _) (List.filter_congr fun entry _ => Bool.and_comm _ _)

/-- A listing reads the records of the rows in their order. -/
theorem Table.list_ordered {table : Table} {ledger : Ledger}
    (holds : List.Forall₂ Row.Holds table.ordered ledger.entries)
    (few : table.rows.length ≤ pageBound) (filter : Filter)
    : table.list filter = ledger.listingSeen filter := by
  rw [list, Ledger.listingSeen, Ledger.page, Ledger.any_live, Ledger.filter_live]
  by_cases empty : filter.pageSize = 0
  -- an empty page is read without a trial of any row
  · simp [empty]
  · have trials := select_holds holds filter
    simp only [empty, if_false, ne_eq, not_false_eq_true, decide_true, Bool.true_and]
    split at trials
    next later => rw [if_pos later, trials]; rfl
    next passed =>
      obtain ⟨found, selected, matching⟩ := trials
      have short : found.length ≤ pageBound := by
        rw [matching.length_eq]
        refine Nat.le_trans (List.length_filter_le _ _) ?_
        rw [← holds.length_eq, Table.ordered, (Order.sort_perm _).length_eq]
        exact few
      rw [if_neg passed, selected]
      refine (congrArg (List.mapM Row.person) (page_within short _ _)).trans ?_
      rw [mapM_person (List.forall₂_take _ (List.forall₂_drop _ matching)), List.map_take, List.map_drop]

/-- The order is that of the rows if these are in the order of their texts of time. -/
theorem Table.list_holds {table : Table} {ledger : Ledger}
    (holds : List.Forall₂ Row.Holds table.rows ledger.entries)
    (inOrder : table.rows.Pairwise fun a b => a.createdAt ≤ b.createdAt)
    (few : table.rows.length ≤ pageBound) (filter : Filter)
    : table.list filter = ledger.listingSeen filter := by
  have ordered : table.ordered = table.rows :=
    Order.sort_eq_self (inOrder.imp fun early => decide_eq_true early)
  exact list_ordered (ordered ▸ holds) few filter

end Store
end PersonRegistry
