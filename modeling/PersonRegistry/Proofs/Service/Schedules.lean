import PersonRegistry.Proofs.Service.Caching
import PersonRegistry.Proofs.Service.Interleaving
import PersonRegistry.Proofs.Service.Traces

/-! Requests that overlap by a schedule, which says whose call is made next. All calls are noted with their
answers, so that the table can be told from them.
-/

namespace PersonRegistry.Service

open Store (Table)
open Time (Span)

-----------------------------------------------------------------------------------------
-- Calls that change a person
-----------------------------------------------------------------------------------------

/-- Whose record was changed by a call, and what it became, if any was. -/
def Answered.change? : Answered → Option (Uuid × Option Person)
  | ⟨.create _, .ok stored⟩ => stored.id.map (·, some stored)
  | ⟨.update p, .ok (some _)⟩ => p.id.map (·, some p)
  | ⟨.delete id, .ok true⟩ => some (id, none)
  | _ => none

def Answered.changes (id : Uuid) (done : Answered) : Bool := done.change?.any (·.1 = id)

/-- What is on record for an identifier after a call, if `held` was before. -/
def Answered.leaves (id : Uuid) (done : Answered) (held : Option Person) : Option Person :=
  match done.change? with
  | some (other, changed) => if other = id then changed else held
  | none => held

theorem Answered.leaves_of_not_changes {id : Uuid} {done : Answered}
    (other : done.changes id = false) (held : Option Person)
    : done.leaves id held = held := by
  rw [leaves]
  rw [changes] at other
  split
  next changed same => rw [same, Option.any_some, decide_eq_false_iff_not] at other; exact if_neg other
  next => rfl

/-- Whom a call read from the store, and what it found. -/
def Answered.read? : Answered → Option (Uuid × Option Person)
  | ⟨.get id, .ok found⟩ => some (id, found)
  | _ => none

theorem Answered.changes_of_read {id other : Uuid} {done : Answered} {found : Option Person}
    (read : done.read? = some (other, found))
    : done.changes id = false := by
  obtain ⟨c, answer⟩ := done
  cases c with
  | get _ => rfl
  | _ => cases read

namespace Backend

variable {b : Backend} {id : Uuid} {held : Option Person}

theorem get_perform_create (before : b.table.get id = .ok held) (p : Person)
    : (b.perform (.create p)).2.table.get id
      = .ok (Answered.leaves id ⟨.create p, (b.perform (.create p)).1⟩ held) := by
  cases down : b.isDown .storeCreate with
  | true =>
      rw [show b.perform (.create p) = _ from storeCall_down down]
      exact before
  | false =>
      rw [perform_create down, Backend.create]
      cases created : b.counted.table.create (b.counted.ids b.counted.issued) b.counted.now p with
      | error e => exact before
      | ok result =>
          obtain ⟨stored, after⟩ := result
          have own := Table.id_of_create created
          simp only [Answered.leaves, Answered.change?, own, Option.map_some]
          rw [Table.get_create created before]
          simp only [eq_comm]

theorem get_perform_update (calm : b.isDown .storeVanish = false)
    (before : b.table.get id = .ok held) (p : Person)
    : (b.perform (.update p)).2.table.get id
      = .ok (Answered.leaves id ⟨.update p, (b.perform (.update p)).1⟩ held) := by
  cases down : b.isDown .storeUpdate with
  | true =>
      rw [show b.perform (.update p) = _ from storeCall_down down]
      exact before
  | false =>
      rw [perform_update down calm]
      cases updated : (b.table.update b.now p).1 with
      | none =>
          rw [Table.update_of_none updated]
          exact before
      | some written =>
          obtain ⟨⟨other, own⟩, rfl⟩ := Table.person_of_update updated
          simp only [Answered.leaves, Answered.change?, own, Option.map_some, eq_comm (a := other)]
          exact Table.get_update own updated before

theorem get_perform_delete (before : b.table.get id = .ok held) (other : Uuid)
    : (b.perform (.delete other)).2.table.get id
      = .ok (Answered.leaves id ⟨.delete other, (b.perform (.delete other)).1⟩ held) := by
  cases down : b.isDown .storeDelete with
  | true =>
      rw [show b.perform (.delete other) = _ from storeCall_down down]
      exact before
  | false =>
      rw [perform_delete down]
      cases deleted : (b.table.delete b.now other).1 with
      | false =>
          rw [Table.delete_of_false deleted]
          exact before
      | true =>
          simp only [Answered.leaves, Answered.change?, eq_comm (a := other)]
          exact Table.get_delete before

/-- A call leaves on record what it says, by cases on it. -/
theorem get_perform (calm : b.isDown .storeVanish = false) (before : b.table.get id = .ok held)
    (c : Call)
    : (b.perform c).2.table.get id = .ok (Answered.leaves id ⟨c, (b.perform c).1⟩ held) := by
  have read {c : Call} (reads : c.Reads) (unchanged : ∀ answer, Answered.change? ⟨c, answer⟩ = none)
      : (b.perform c).2.table.get id = .ok (Answered.leaves id ⟨c, (b.perform c).1⟩ held) := by
    rw [table_perform reads, before, Answered.leaves, unchanged]
  cases c with
  | create p => exact get_perform_create before p
  | update p => exact get_perform_update calm before p
  | delete other => exact get_perform_delete before other
  | _ => exact read trivial fun _ => rfl

end Backend

/-- What a call read is what the table held. -/
theorem Backend.get_of_read? {b : Backend} {c : Call} {id : Uuid} {found : Option Person}
    (read : Answered.read? ⟨c, (b.perform c).1⟩ = some (id, found))
    : b.table.get id = .ok found := by
  cases c with
  | get other =>
      cases down : b.isDown .storeGet with
      | true =>
          rw [show b.perform (.get other) = _ from storeCall_down down] at read
          cases read
      | false =>
          rw [perform_get down] at read
          cases held : b.table.get other with
          | error e => rw [held] at read; cases read
          | ok some? =>
              rw [held] at read
              cases read
              exact held
  | _ => cases read

/-- A person that the store gives has the identifier it was asked for by. -/
def Call.AnsweredById : (c : Call) → c.Answer → Prop
  | .get id, .ok (some p) => p.id = some id
  | _, _ => True

theorem Backend.perform_answeredById (b : Backend) (c : Call) : c.AnsweredById (b.perform c).1 := by
  cases c with
  | get id =>
      cases down : b.isDown .storeGet with
      | true =>
          rw [show b.perform (.get id) = _ from storeCall_down down]
          trivial
      | false =>
          rw [perform_get down]
          rcases found : b.table.get id with e | none | p
          · trivial
          · trivial
          · exact Table.id_of_get found
  | _ => trivial

-----------------------------------------------------------------------------------------
-- Schedules
-----------------------------------------------------------------------------------------

/-- A call that was answered, and the number of the program that made it. -/
abbrev Event := Nat × Answered

/-- The calls of one program, out of the calls of all. -/
def ownCalls (program : Nat) (past : List Event) : List Answered :=
  past.filterMap fun event => if event.1 = program then some event.2 else none

/-- What is on record for an identifier after all calls so far, if `held` was at first. -/
def record (id : Uuid) (held : Option Person) : (past : List Event) → Option Person
  | [] => held
  | event :: earlier => event.2.leaves id (record id held earlier)

/-- One program makes its next call. Parts that are down may differ from call to call. -/
structure Move where
  program : Nat
  outages : List Outage := []

/-- The person that schedules are tried with. -/
def ada : Person where
  id := some .nil
  name := "Ada"
  surname := "Byron"
  age := some 36
  gender := some "female"
  nationality := some "GB"

/-- Surroundings with one person on record, and nothing in the cache. -/
def Backend.holding (p : Person) : Backend where
  table := ⟨[.ofPerson .nil (.ofMilliseconds 0) p]⟩
  replies _ := .unreachable
  ids _ := .nil

def Backend.facing (b : Backend) (outages : List Outage) : Backend := { b with outages }

/-- Requests underway, and the calls made for them so far, latest first. -/
structure Overlap extends Underway where
  past : List Event := []

namespace Overlap

/-- Requests that were begun, before any call is made for them. -/
def begun (start : Backend) (span : Span) (requests : List Request) : Overlap where
  backend := start
  programs := requests.map (programOf span)

/-- A program makes a call and goes on with the answer. -/
def call (s : Overlap) (m : Move) (c : Call) (next : c.Answer → Program (Except Error Outcome))
    : Overlap :=
  let (answer, backend) := (s.backend.facing m.outages).perform c
  { backend
    programs := s.programs.set m.program (next answer)
    past := (m.program, ⟨c, answer⟩) :: s.past }

/-- The whole after a move. A program that is over makes no more calls. -/
def move (s : Overlap) (m : Move) : Overlap :=
  match s.programs[m.program]? with
  | some (.ask c next) => s.call m c next
  | _ => s

def after (s : Overlap) (schedule : List Move) : Overlap := schedule.foldl move s

/-- All programs are over. -/
def IsOver (s : Overlap) : Prop := ∀ program ∈ s.programs, program.IsOver

instance (s : Overlap) : Decidable s.IsOver :=
  inferInstanceAs (Decidable (∀ program ∈ s.programs, program.IsOver))

variable {s : Overlap} {m : Move}

/-- What a call of any program keeps, every schedule keeps, by induction on it. -/
theorem after_induction {motive : Overlap → Prop} {schedule : List Move} (start : motive s)
    (call
      : ∀ (s : Overlap) (m : Move) (c : Call) (next : c.Answer → Program (Except Error Outcome)),
          m ∈ schedule → s.programs[m.program]? = some (.ask c next) → motive s →
            motive (s.call m c next))
    : motive (s.after schedule) := by
  induction schedule generalizing s with
  | nil => exact start
  | cons m rest ih =>
      refine ih (s := s.move m) ?_ fun s m' c next among => call s m' c next (List.mem_cons_of_mem m among)
      rw [move]
      split
      next c next underway => exact call s m c next List.mem_cons_self underway start
      next => exact start

end Overlap

section Past

variable {i : Nat} {a : Answered} {past : List Event}

theorem ownCalls_append (i : Nat) (later earlier : List Event)
    : ownCalls i (later ++ earlier) = ownCalls i later ++ ownCalls i earlier :=
  List.filterMap_append

@[simp] theorem ownCalls_own (i : Nat) (a : Answered) (past : List Event)
    : ownCalls i ((i, a) :: past) = a :: ownCalls i past := by
  simp [ownCalls]

theorem ownCalls_other {j : Nat} (other : j ≠ i) : ownCalls i ((j, a) :: past) = ownCalls i past := by
  simp [ownCalls, other]

theorem mem_ownCalls : a ∈ ownCalls i past ↔ (i, a) ∈ past := by
  simp only [ownCalls, List.mem_filterMap, Option.ite_none_right_eq_some, Option.some.injEq]
  constructor
  · rintro ⟨⟨j, b⟩, member, rfl, rfl⟩
    exact member
  · exact fun member => ⟨(i, a), member, rfl, rfl⟩

/-- Calls that change nothing for an identifier leave its record as it is, by induction on them. -/
theorem record_append_of_not_changes {id : Uuid} {later : List Event}
    (unchanged : ∀ event ∈ later, event.2.changes id = false) (held : Option Person)
    (earlier : List Event)
    : record id held (later ++ earlier) = record id held earlier := by
  induction later with
  | nil => rfl
  | cons event rest ih =>
      obtain ⟨first, others⟩ := List.forall_mem_cons.mp unchanged
      rw [List.cons_append, record, Answered.leaves_of_not_changes first, ih others]

end Past

-----------------------------------------------------------------------------------------
-- What holds of all schedules
-----------------------------------------------------------------------------------------

/-- What was called so far agrees with the table: it holds what the calls left on record, and each read
gave what was on record then.
-/
structure Overlap.Recorded (start : Backend) (s : Overlap) : Prop where
  table : ∀ id held, start.table.get id = .ok held →
    s.backend.table.get id = .ok (record id held s.past)
  reads : ∀ id held later i done found earlier, start.table.get id = .ok held →
    s.past = later ++ (i, done) :: earlier → done.read? = some (id, found) →
    found = record id held earlier

/-- Nobody else deletes a person while calls are made. -/
def Move.IsCalm (m : Move) : Prop := .storeVanish ∉ m.outages

theorem recorded_after {start : Backend} {span : Span} {requests : List Request}
    {schedule : List Move} (calm : ∀ m ∈ schedule, m.IsCalm)
    : ((Overlap.begun start span requests).after schedule).Recorded start := by
  refine Overlap.after_induction ⟨fun id held before => before, ?_⟩ ?_
  · intro id held later i done found earlier _ split
    simp [Overlap.begun] at split
  intro s m c next among underway recorded
  constructor
  · intro id held before
    have calm : (s.backend.facing m.outages).isDown .storeVanish = false := by
      simpa [Backend.isDown, Backend.facing] using show .storeVanish ∉ m.outages from calm m among
    exact Backend.get_perform calm (recorded.table id held before) c
  · intro id held later i done found earlier before split read
    rcases List.cons_eq_append_iff.mp split with ⟨rfl, same⟩ | ⟨rest, rfl, splits⟩
    · obtain ⟨head, rfl⟩ := List.cons.inj same
      obtain ⟨rfl, rfl⟩ := Prod.mk.inj head
      have now := Backend.get_of_read? read
      exact Except.ok.inj (now.symm.trans (recorded.table id held before))
    · exact recorded.reads id held rest i done found earlier before splits read

/-- What each program keeps to, as long as it is answered as promised, shows in its calls. -/
def Overlap.KeptTo (promised : (c : Call) → c.Answer → Prop)
    (ending : Nat → List Answered → Except Error Outcome → Prop) (s : Overlap) : Prop :=
  ∀ i (program : Program (Except Error Outcome)), s.programs[i]? = some program →
    program.EndsAs promised (ending i) (ownCalls i s.past)

section Requests

variable {start : Backend} {span : Span} {requests : List Request} {schedule : List Move}

/-- Each call of a program is one of those after which it is over as it keeps to. -/
theorem kept_after {promised : (c : Call) → c.Answer → Prop}
    {ending : Nat → List Answered → Except Error Outcome → Prop}
    (keep
      : ∀ i request, requests[i]? = some request →
          (programOf span request).EndsAs promised (ending i) [])
    (answers : ∀ m ∈ schedule, ∀ (b : Backend) c, promised c ((b.facing m.outages).perform c).1)
    : ((Overlap.begun start span requests).after schedule).KeptTo promised ending := by
  refine Overlap.after_induction ?_ ?_
  · intro i program begun
    rw [Overlap.begun, List.getElem?_map, Option.map_eq_some_iff] at begun
    obtain ⟨request, asked, rfl⟩ := begun
    exact keep i request asked
  intro s m c next among underway kept i program later
  rw [Overlap.call] at later ⊢
  by_cases own : i = m.program
  · subst own
    have short := (List.getElem?_eq_some_iff.mp underway).1
    rw [List.getElem?_set_self short] at later
    obtain rfl := Option.some.inj later
    rw [ownCalls_own]
    exact kept m.program _ underway _ (answers m among s.backend c)
  · rw [List.getElem?_set_ne (Ne.symm own)] at later
    rw [ownCalls_other (Ne.symm own)]
    exact kept i program later

/-- There are as many programs as requests, and every call was made by one of them. -/
theorem programs_after
    : let s := (Overlap.begun start span requests).after schedule
      s.programs.length = requests.length ∧ ∀ event ∈ s.past, event.1 < requests.length := by
  refine Overlap.after_induction
    (motive := fun s =>
      s.programs.length = requests.length ∧ ∀ event ∈ s.past, event.1 < requests.length)
    ⟨by simp [Overlap.begun], by simp [Overlap.begun]⟩ ?_
  intro s m c next _ underway ⟨size, known⟩
  refine ⟨by rw [Overlap.call, List.length_set, size], fun event member => ?_⟩
  rcases List.mem_cons.mp member with rfl | old
  · exact size ▸ (List.getElem?_eq_some_iff.mp underway).1
  · exact known event old

/-- Once all programs are over, the calls of each are as it keeps to. -/
theorem Overlap.KeptTo.ended {promised : (c : Call) → c.Answer → Prop}
    {ending : Nat → List Answered → Except Error Outcome → Prop} {s : Overlap}
    (kept : s.KeptTo promised ending) (ended : s.IsOver) {i : Nat} (known : i < s.programs.length)
    : ∃ result, s.programs[i]? = some (.done result) ∧ ending i (ownCalls i s.past) result := by
  have there := List.getElem?_eq_getElem known
  obtain ⟨result, done⟩ := ended s.programs[i] (List.getElem_mem known)
  rw [done] at there
  exact ⟨result, there, kept i _ there⟩

end Requests
end PersonRegistry.Service
