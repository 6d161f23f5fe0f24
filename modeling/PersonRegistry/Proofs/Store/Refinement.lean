import PersonRegistry.Proofs.Store.Listing

/-! Whatever is asked of the table, it replies as the ledger does: each row holds the record at its place, and
the texts of time keep the rows in the order of their creation.
-/

namespace PersonRegistry.Store

open Time (Instant)

-----------------------------------------------------------------------------------------
-- Rows and their records
-----------------------------------------------------------------------------------------

variable {row : Row} {entry : Entry} {id : Uuid} {now : Instant} {p : Person}

namespace Row

theorem holds_ofPerson (id : Uuid) (now : Instant) (p : Person)
    : (ofPerson id now p).Holds ⟨id, { p with id := some id }, true⟩ :=
  ⟨rfl, rfl, rfl, rfl, rfl, rfl⟩

theorem Holds.overwritten (holds : row.Holds entry) (own : p.id = some entry.id)
    : (row.overwritten now p).Holds { entry with person := p } where
  personId := holds.personId
  person := by
    rw [personOf, ← own]
    rfl
  nameKey := rfl
  surnameKey := rfl
  patronymicKey := rfl
  isDeleted := holds.isDeleted

theorem Holds.deleted (holds : row.Holds entry)
    : (row.deleted now).Holds { entry with isLive := false } := by
  rw [Row.deleted]
  exact ⟨holds.personId, holds.person, holds.nameKey, holds.surnameKey, holds.patronymicKey, rfl⟩

/-- Texts tell identifiers apart, so that a row is live for the identifiers its record is live for. -/
theorem Holds.isLiveFor (holds : row.Holds entry) (id : Uuid)
    : row.isLiveFor id = entry.isLiveFor id := by
  rw [Row.isLiveFor, Entry.isLiveFor, holds.isDeleted, holds.personId, Bool.not_not]
  exact congrArg (entry.isLive && ·) (decide_eq_decide.mpr Uuid.text_inj)

end Row

variable {rows : List Row} {entries : List Entry}

theorem find?_holds (holds : List.Forall₂ Row.Holds rows entries) (id : Uuid)
    : (rows.find? (Row.isLiveFor id)).map (·.personOf id)
      = (entries.find? (Entry.isLiveFor id)).map (·.person) := by
  induction holds with
  | nil => rfl
  | @cons row entry rows entries first _ ih =>
      have same := first.isLiveFor id
      rw [List.find?_cons, List.find?_cons, ← same]
      cases live : row.isLiveFor id with
      | false => exact ih
      | true =>
          rw [same, Entry.isLiveFor, Bool.and_eq_true, decide_eq_true_eq] at live
          rw [← live.2]
          exact congrArg some first.person

/-- What is the same of each row and its record is found in the rows if it is found in the records. -/
theorem any_holds (holds : List.Forall₂ Row.Holds rows entries) {inRow : Row → Bool}
    {inEntry : Entry → Bool} (same : ∀ row entry, row.Holds entry → inRow row = inEntry entry)
    : rows.any inRow = entries.any inEntry := by
  induction holds with
  | nil => rfl
  | cons first _ ih => rw [List.any_cons, List.any_cons, same _ _ first, ih]

theorem any_isLiveFor (holds : List.Forall₂ Row.Holds rows entries) (id : Uuid)
    : rows.any (Row.isLiveFor id) = entries.any (Entry.isLiveFor id) :=
  any_holds holds fun _ _ holds => holds.isLiveFor id

/-- Rows and records changed for one identifier stay together. -/
theorem change_holds (holds : List.Forall₂ Row.Holds rows entries) {change : Row → Row}
    {alter : Entry → Entry}
    (changed
      : ∀ row entry, row.Holds entry → entry.isLiveFor id = true → (change row).Holds (alter entry))
    : List.Forall₂ Row.Holds (rows.map fun row => if row.isLiveFor id then change row else row)
        (entries.map fun entry => if entry.isLiveFor id then alter entry else entry) := by
  rw [List.forall₂_map_left_iff, List.forall₂_map_right_iff]
  refine holds.imp fun row entry holds => ?_
  rw [holds.isLiveFor]
  split
  next live => exact changed row entry holds live
  next => exact holds

-----------------------------------------------------------------------------------------
-- One call
-----------------------------------------------------------------------------------------

/-- The identifier of the person that a call creates. -/
def Turn.created? (turn : Turn) : Option Uuid :=
  match turn.action with
  | .create _ => some turn.fresh
  | _ => none

/-- Calls to which no identifier is given twice, whose clock does not run backwards and stays within years of
four digits, and which create no more persons than the table can number.
-/
structure Orderly (turns : List Turn) : Prop where
  fresh : (turns.filterMap Turn.created?).Nodup
  clock : turns.Pairwise fun a b => a.now.NotAfter b.now
  regular : ∀ turn ∈ turns, turn.now.Regular
  room : (turns.filterMap Turn.created?).length ≤ Table.pageBound

/-- A table has the records of a ledger in its rows, and is ready for the calls to come: its rows are in
order and before them, and leave their identifiers free and room for their persons.
-/
structure Table.Tracks (table : Table) (ledger : Ledger) (turns : List Turn) : Prop where
  holds : List.Forall₂ Row.Holds table.rows ledger.entries
  inOrder : table.rows.Pairwise fun a b => a.createdAt ≤ b.createdAt
  early : ∀ row ∈ table.rows, ∀ turn ∈ turns, row.createdAt ≤ turn.now.text
  free : ∀ entry ∈ ledger.entries, entry.id ∉ turns.filterMap Turn.created?
  room : table.rows.length + (turns.filterMap Turn.created?).length ≤ Table.pageBound

namespace Table.Tracks

variable {table : Table} {ledger : Ledger} {turn : Turn} {turns : List Turn}

theorem skip (tracks : table.Tracks ledger (turn :: turns)) : table.Tracks ledger turns where
  holds := tracks.holds
  inOrder := tracks.inOrder
  early row member later among := tracks.early row member later (List.mem_cons_of_mem turn among)
  free entry member used := by
    refine tracks.free entry member ?_
    rw [List.filterMap_cons]
    split
    next => exact used
    next => exact List.mem_cons_of_mem _ used
  room := by
    refine Nat.le_trans (Nat.add_le_add_left ?_ _) tracks.room
    rw [List.filterMap_cons]
    split
    next => exact Nat.le_refl _
    next => exact Nat.le_succ _

theorem change (tracks : table.Tracks ledger turns) {change : Row → Row} {alter : Entry → Entry}
    (createdAt : ∀ row, (change row).createdAt = row.createdAt)
    (own : ∀ entry, (alter entry).id = entry.id)
    (changed
      : ∀ row entry, row.Holds entry → entry.isLiveFor id = true → (change row).Holds (alter entry))
    : Tracks ⟨table.rows.map fun row => if row.isLiveFor id then change row else row⟩
        (ledger.change id alter) turns := by
  have sameTime (row : Row)
      : (if row.isLiveFor id then change row else row).createdAt = row.createdAt := by
    split
    next => exact createdAt row
    next => rfl
  have sameId (entry : Entry)
      : (if entry.isLiveFor id then alter entry else entry).id = entry.id := by
    split
    next => exact own entry
    next => rfl
  refine ⟨change_holds tracks.holds changed, ?_, ?_, ?_, ?_⟩
  · refine List.pairwise_map.mpr (tracks.inOrder.imp fun early => ?_)
    rw [sameTime, sameTime]
    exact early
  · intro row member later among
    obtain ⟨old, stood, rfl⟩ := List.mem_map.mp member
    rw [sameTime]
    exact tracks.early old stood later among
  · intro entry member
    obtain ⟨old, stood, rfl⟩ := List.mem_map.mp member
    rw [sameId]
    exact tracks.free old stood
  · rw [List.length_map]
    exact tracks.room

/-- A turn that creates a person adds its identifier to those of the turns after it. -/
theorem filterMap_created (action : turn.action = .create p) (turns : List Turn)
    : (turn :: turns).filterMap Turn.created? = turn.fresh :: turns.filterMap Turn.created? := by
  rw [List.filterMap_cons, Turn.created?, action]

/-- A new person gets a row of its own, since no row has its identifier. -/
theorem create (tracks : table.Tracks ledger (turn :: turns)) (action : turn.action = .create p)
    : table.create turn.fresh turn.now p
      = .ok ({ p with id := some turn.fresh },
          ⟨table.rows ++ [.ofPerson turn.fresh turn.now p]⟩) := by
  have sameId (row : Row) (entry : Entry) (holds : row.Holds entry)
      : decide (row.personId = turn.fresh.text) = decide (entry.id = turn.fresh) := by
    rw [holds.personId]
    exact decide_eq_decide.mpr Uuid.text_inj
  have apart : table.rows.any (·.personId = turn.fresh.text) = false := by
    rw [any_holds tracks.holds sameId, List.any_eq_false]
    intro entry member same
    refine tracks.free entry member ?_
    rw [filterMap_created action, of_decide_eq_true same]
    exact List.mem_cons_self
  rw [Table.create, apart]
  rfl

/-- The new row comes last in both orders, as the clock does not run backwards. -/
theorem created (tracks : table.Tracks ledger (turn :: turns)) (orderly : Orderly (turn :: turns))
    (action : turn.action = .create p)
    : Tracks ⟨table.rows ++ [.ofPerson turn.fresh turn.now p]⟩
        ⟨ledger.entries ++ [⟨turn.fresh, { p with id := some turn.fresh }, true⟩]⟩ turns := by
  have first := List.mem_cons_self (a := turn) (l := turns)
  have fresh := orderly.fresh
  have room := tracks.room
  rw [filterMap_created action] at fresh room
  obtain ⟨unused, -⟩ := List.nodup_cons.mp fresh
  refine ⟨List.rel_append tracks.holds (.cons (Row.holds_ofPerson _ _ p) .nil), ?_, ?_, ?_, ?_⟩
  · rw [List.pairwise_append]
    refine ⟨tracks.inOrder, List.pairwise_singleton _ _, ?_⟩
    intro row member new isNew
    obtain rfl := List.mem_singleton.mp isNew
    exact tracks.early row member turn first
  · intro row member later among
    rcases List.mem_append.mp member with old | new
    · exact tracks.skip.early row old later among
    · obtain rfl := List.mem_singleton.mp new
      exact (List.rel_of_pairwise_cons orderly.clock among).text_le (orderly.regular turn first)
        (orderly.regular later (List.mem_cons_of_mem turn among))
  · intro entry member
    rcases List.mem_append.mp member with old | new
    · exact tracks.skip.free entry old
    · obtain rfl := List.mem_singleton.mp new
      exact unused
  · rw [List.length_cons] at room
    simp only [List.length_append, List.length_singleton]
    omega

/-- The table replies to one call as the ledger does, and tracks it further, by cases on the call. -/
theorem answer (tracks : table.Tracks ledger (turn :: turns)) (orderly : Orderly (turn :: turns))
    : (table.answer turn).1 = (ledger.answer Ledger.listingSeen turn).1
      ∧ (table.answer turn).2.Tracks (ledger.answer Ledger.listingSeen turn).2 turns := by
  rw [Table.answer, Ledger.answer]
  cases action : turn.action with
  | create p =>
      simp only [tracks.create action, true_and]
      exact tracks.created orderly action
  | get id =>
      refine ⟨?_, tracks.skip⟩
      simp only [Table.get_eq, find?_holds tracks.holds]
      rfl
  | list filter =>
      have few : table.rows.length ≤ Table.pageBound :=
        Nat.le_trans (Nat.le_add_right _ _) tracks.room
      refine ⟨?_, tracks.skip⟩
      simp only [Table.list_holds tracks.holds tracks.inOrder few]
  | update p =>
      cases own : p.id with
      | none =>
          simp only [Table.update, own, true_and]
          exact tracks.skip
      | some id =>
          simp only [Table.update, own, any_isLiveFor tracks.holds]
          split
          next =>
            refine ⟨rfl, tracks.skip.change (fun row => row.createdAt_overwritten turn.now p)
              (fun _ => rfl) fun row entry holds live => ?_⟩
            rw [Entry.isLiveFor, Bool.and_eq_true, decide_eq_true_eq] at live
            refine holds.overwritten ?_
            rw [own, live.2]
          next => exact ⟨rfl, tracks.skip⟩
  | delete id =>
      simp only [Table.delete, any_isLiveFor tracks.holds, true_and]
      exact tracks.skip.change (fun row => row.createdAt_deleted turn.now) (fun _ => rfl)
        fun _ _ holds _ => holds.deleted
  | reopen => exact ⟨rfl, tracks.skip⟩

end Table.Tracks

-----------------------------------------------------------------------------------------
-- All calls
-----------------------------------------------------------------------------------------

theorem Orderly.rest {turn : Turn} {turns : List Turn} (orderly : Orderly (turn :: turns))
    : Orderly turns := by
  have fewer : (turns.filterMap Turn.created?).Sublist ((turn :: turns).filterMap Turn.created?) :=
    (List.sublist_cons_self turn turns).filterMap _
  exact {
    fresh := fewer.nodup orderly.fresh
    clock := orderly.clock.of_cons
    regular := fun later among => orderly.regular later (List.mem_cons_of_mem turn among)
    room := Nat.le_trans fewer.length_le orderly.room
  }

/-- The table replies as the ledger does to all calls, by induction on them. -/
theorem Table.Tracks.answers {table : Table} {ledger : Ledger} {turns : List Turn}
    (tracks : table.Tracks ledger turns) (orderly : Orderly turns)
    : table.answers turns = ledger.answers Ledger.listingSeen turns := by
  induction turns generalizing table ledger with
  | nil => rfl
  | cons turn rest ih =>
      -- both sides answer the rest from what they became by the first call
      obtain ⟨same, after⟩ := tracks.answer orderly
      rw [Table.answers, Ledger.answers, same, ih after orderly.rest]

-----------------------------------------------------------------------------------------
-- Where matching sees everything
-----------------------------------------------------------------------------------------

/-- The name parts of a person are without the code points that are no characters. -/
def PartsAssigned (p : Person) : Prop :=
  IsAssigned p.name ∧ IsAssigned p.surname ∧ ∀ part ∈ p.patronymic, IsAssigned part

instance (p : Person) : Decidable (PartsAssigned p) :=
  inferInstanceAs
    (Decidable (IsAssigned p.name ∧ IsAssigned p.surname ∧ ∀ part ∈ p.patronymic, IsAssigned part))

/-- A start of name parts hides nothing from matching, and its pattern is evaluated. -/
structure IsPlain (start : String) : Prop where
  noNull : '\x00' ∉ start.toList
  assigned : IsAssigned start
  short : isTooLong (startPattern start) = false

instance (start : String) : Decidable (IsPlain start) :=
  decidable_of_iff
    ('\x00' ∉ start.toList ∧ IsAssigned start ∧ isTooLong (startPattern start) = false)
    ⟨fun ⟨noNull, assigned, short⟩ => ⟨noNull, assigned, short⟩,
      fun plain => ⟨plain.noNull, plain.assigned, plain.short⟩⟩

/-- What a call writes or asks for is seen as it is. -/
def Action.IsPlain : Action → Prop
  | .create p | .update p => PartsAssigned p
  | .list filter => ∀ start ∈ filter.starts, Store.IsPlain start
  | .get _ | .delete _ | .reopen => True

instance : DecidablePred Action.IsPlain
  | .create p | .update p => inferInstanceAs (Decidable (PartsAssigned p))
  | .list filter => inferInstanceAs (Decidable (∀ start ∈ filter.starts, Store.IsPlain start))
  | .get _ | .delete _ | .reopen => .isTrue trivial

/-- A start is asked of the parts that a person has. -/
theorem of_mem_asked {filter : Filter} {start : String} {part : Option String}
    (assigned : PartsAssigned p) (among : (start, part) ∈ filter.asked p)
    : start ∈ filter.starts ∧ ∀ text ∈ part, IsAssigned text := by
  obtain ⟨name, surname, patronymic⟩ := assigned
  simp only [Filter.asked, Filter.starts, List.mem_append, Option.mem_toList, Option.map_eq_some_iff,
    Prod.mk.injEq] at among ⊢
  rcases among with (⟨_, asked, rfl, rfl⟩ | ⟨_, asked, rfl, rfl⟩) | ⟨_, asked, rfl, rfl⟩
  · exact ⟨Or.inl (Or.inl asked), fun text same => Option.some.inj same ▸ name⟩
  · exact ⟨Or.inl (Or.inr asked), fun text same => Option.some.inj same ▸ surname⟩
  · exact ⟨Or.inr asked, patronymic⟩

theorem accepts_seen {filter : Filter} (plain : ∀ start ∈ filter.starts, IsPlain start)
    (assigned : PartsAssigned p)
    : filter.accepts startsAsSeen p = filter.accepts startsAs p := by
  have parts : (filter.asked p).all (fun asked => asked.2.any (startsAsSeen asked.1))
      = (filter.asked p).all (fun asked => asked.2.any (startsAs asked.1)) := by
    rw [Bool.eq_iff_iff, List.all_eq_true, List.all_eq_true]
    refine forall₂_congr fun asked among => ?_
    obtain ⟨start, part⟩ := asked
    obtain ⟨asked, known⟩ := of_mem_asked assigned among
    cases part with
    | none => rw [Option.any_none, Option.any_none]
    | some text =>
        have same := startsAsSeen_eq (plain start asked).noNull (plain start asked).assigned
          (known text rfl)
        rw [Option.any_some, Option.any_some, same]
  rw [Filter.accepts, Filter.accepts, parts]

theorem listingSeen_eq {ledger : Ledger} {filter : Filter}
    (plain : ∀ start ∈ filter.starts, IsPlain start)
    (assigned : ∀ entry ∈ ledger.entries, PartsAssigned entry.person)
    : ledger.listingSeen filter = ledger.listing filter := by
  have live : ∀ p ∈ ledger.live, PartsAssigned p := by
    intro p member
    obtain ⟨entry, kept, rfl⟩ := List.mem_map.mp member
    exact assigned entry (List.mem_of_mem_filter kept)
  have passed : ledger.live.any (fun p => Ledger.stalls (filter.asked p)) = false := by
    rw [List.any_eq_false]
    intro p member stalled
    have short : ∀ asked ∈ filter.asked p, isTooLong (startPattern asked.1) = false :=
      fun _ among => (plain _ (of_mem_asked (live p member) among).1).short
    rw [stalls_eq_false short] at stalled
    cases stalled
  have same : ledger.page startsAsSeen filter = ledger.page startsAs filter := by
    rw [Ledger.page, Ledger.page,
      List.filter_congr fun p member => accepts_seen plain (live p member)]
  rw [Ledger.listingSeen, Ledger.listing, passed, same, Bool.and_false]
  rfl

/-- The persons of a ledger stay without the code points that are no characters. -/
theorem assigned_answer {listing : Ledger → Filter → Except Error (List Person)} {ledger : Ledger}
    {turn : Turn} (plain : turn.action.IsPlain)
    (assigned : ∀ entry ∈ ledger.entries, PartsAssigned entry.person)
    : ∀ entry ∈ (ledger.answer listing turn).2.entries, PartsAssigned entry.person := by
  have changed {id : Uuid} {alter : Entry → Entry}
      (alters : ∀ entry, PartsAssigned entry.person → PartsAssigned (alter entry).person)
      : ∀ entry ∈ (ledger.change id alter).entries, PartsAssigned entry.person := by
    intro entry member
    obtain ⟨old, stood, rfl⟩ := List.mem_map.mp member
    split
    next => exact alters old (assigned old stood)
    next => exact assigned old stood
  rw [Ledger.answer]
  cases action : turn.action with
  | create p =>
      rw [action] at plain
      intro entry member
      rcases List.mem_append.mp member with old | new
      · exact assigned entry old
      · obtain rfl := List.mem_singleton.mp new
        exact plain
  | update p =>
      rw [action] at plain
      simp only
      split
      next => exact assigned
      next =>
        split
        next => exact changed fun _ _ => plain
        next => exact assigned
  | delete id => exact changed fun _ known => known
  | get _ | list _ | reopen => exact assigned

/-- Listings by what matching sees are listings by what is asked for, by induction on the calls. -/
theorem answers_listing {ledger : Ledger} {turns : List Turn}
    (plain : ∀ turn ∈ turns, turn.action.IsPlain)
    (assigned : ∀ entry ∈ ledger.entries, PartsAssigned entry.person)
    : ledger.answers Ledger.listingSeen turns = ledger.answers Ledger.listing turns := by
  induction turns generalizing ledger with
  | nil => rfl
  | cons turn rest ih =>
      obtain ⟨plainFirst, plainRest⟩ := List.forall_mem_cons.mp plain
      have same : ledger.answer Ledger.listingSeen turn = ledger.answer Ledger.listing turn := by
        rw [Ledger.answer, Ledger.answer]
        cases action : turn.action with
        | list filter =>
            rw [action] at plainFirst
            simp only [listingSeen_eq plainFirst assigned]
        | create _ | get _ | update _ | delete _ | reopen => rfl
      rw [Ledger.answers, Ledger.answers, same, ih plainRest (assigned_answer plainFirst assigned)]

-----------------------------------------------------------------------------------------
-- From the empty table
-----------------------------------------------------------------------------------------

/-- Whatever is asked of an empty table, it replies as the ledger that lists by what matching sees. It
replies as the ledger that lists by what is asked for as long as matching sees all of that: no listing asks
for a start with a null character or with a pattern beyond the limit, and no code points that are no
characters are asked for or written.
-/
theorem answers_eq_ledger {turns : List Turn} (orderly : Orderly turns)
    : ({} : Table).answers turns = ({} : Ledger).answers Ledger.listingSeen turns
      ∧ ((∀ turn ∈ turns, turn.action.IsPlain) →
        ({} : Table).answers turns = ({} : Ledger).answers Ledger.listing turns) := by
  have tracks : Table.Tracks {} {} turns := by
    refine ⟨.nil, .nil, by simp, by simp, ?_⟩
    rw [List.length_nil, Nat.zero_add]
    exact orderly.room
  have same := tracks.answers orderly
  exact ⟨same, fun plain => same.trans (answers_listing plain (by simp))⟩

/-- Two persons are created a second apart, one is changed and listed by the start of the new name, and both
are deleted, one of them twice.
-/
theorem answers_eq_ledger_two_persons
    : let first : Uuid := .nil
      let second : Uuid := ⟨List.replicate 32 1, rfl⟩
      let turn (action : Action) (seconds : Int) (fresh : Uuid) : Turn := ⟨action, ⟨seconds, 0⟩, fresh⟩
      let turns : List Turn :=
        [turn (.create { name := "Ada", surname := "Byron" }) 0 first,
          turn (.create { id := some first, name := "Иван", surname := "Петров" }) 1 second,
          turn (.update { id := some first, name := "Ivy", surname := "Byron" }) 2 first,
          turn (.list { name := some "iV", offset := some 0 }) 2 first,
          turn .reopen 3 first,
          turn (.delete first) 3 first,
          turn (.delete first) 3 first,
          turn (.delete second) 3 first]
      ({} : Table).answers turns = ({} : Ledger).answers Ledger.listing turns := by
  intro first second turn turns
  have orderly : Orderly turns :=
    ⟨by decide +kernel, by decide +kernel, by decide +kernel, by decide +kernel⟩
  have plain : ∀ turn ∈ turns, turn.action.IsPlain := by decide +kernel
  exact (answers_eq_ledger orderly).2 plain

/-- A null character in the name that is asked for hides the end of it. -/
theorem answers_ne_ledger_null
    : let turns : List Turn :=
        [⟨.create { name := "a\x00b", surname := "Petrov" }, ⟨0, 0⟩, .nil⟩,
          ⟨.list { name := some "a\x00c" }, ⟨0, 0⟩, .nil⟩]
      ({} : Table).answers turns ≠ ({} : Ledger).answers Ledger.listing turns := by
  decide +kernel

end PersonRegistry.Store
