import PersonRegistry.Proofs.Person.Coding
import PersonRegistry.Proofs.Service.Storing
import PersonRegistry.Proofs.Service.Traces

/-! Creating a person, stage by stage: the draft is checked, its name looked up, the complete record
checked, stored and told of. Each stage ends the creation with an error or leads to the next one, and
nothing is left behind unless all have passed.
-/

namespace PersonRegistry.Service

open Inference (Enrichment LookupError)
open Text (Octets)

-----------------------------------------------------------------------------------------
-- The stages
-----------------------------------------------------------------------------------------

section

variable {σ : Type} (perform : (c : Call) → σ → c.Answer × σ) (s : σ) (draft : Draft)

/-- The draft is in order, its name was looked up, and the record completed by that is in order. -/
structure Completes (found : Enrichment) (now : σ) : Prop where
  valid : draft.faults = []
  finds : perform (.lookUp draft.name) s = (.ok found, now)
  fit : (found.apply draft.candidate).faults = []

/-- How the creation of a person goes in surroundings of any kind: the result, the calls that are made,
and what they leave. One case for each stage that ends it.
-/
inductive Creation : Except Error Person → List Answered → σ → Prop
  | invalid (faulty : draft.faults ≠ []) : Creation (.error (.invalid draft.faults)) [] s
  | unknown {e : LookupError} {now : σ} (valid : draft.faults = [])
      (fails : perform (.lookUp draft.name) s = (.error e, now))
      : Creation (.error (.lookup e)) [⟨.lookUp draft.name, .error e⟩] now
  | unfit {found : Enrichment} {now : σ} (valid : draft.faults = [])
      (finds : perform (.lookUp draft.name) s = (.ok found, now))
      (faulty : (found.apply draft.candidate).faults ≠ [])
      : Creation (.error (.invalid (found.apply draft.candidate).faults))
          [⟨.lookUp draft.name, .ok found⟩] now
  | refused {found : Enrichment} {e : Store.Error} {now after : σ}
      (completes : Completes perform s draft found now)
      (fails : perform (.create (found.apply draft.candidate)) now = (.error e, after))
      : Creation (.error (.store e))
          [⟨.lookUp draft.name, .ok found⟩, ⟨.create (found.apply draft.candidate), .error e⟩] after
  | stored {found : Enrichment} {p : Person} {now after last : σ}
      {arrives : Except DeliveryError Unit} (completes : Completes perform s draft found now)
      (takes : perform (.create (found.apply draft.candidate)) now = (.ok p, after))
      (told : perform (.publish (createdEvent p)) after = (arrives, last))
      : Creation (.ok p)
          [⟨.lookUp draft.name, .ok found⟩, ⟨.create (found.apply draft.candidate), .ok p⟩,
            ⟨.publish (createdEvent p), arrives⟩] last

theorem creation
    : Creation perform s draft ((create draft).run perform s).1 ((create draft).trace perform s)
        ((create draft).run perform s).2 := by
  rw [create]
  split
  next faulty => exact .invalid faulty
  next valid =>
    have valid : draft.faults = [] := Decidable.not_not.mp valid
    obtain ⟨looked, now, lookUp⟩ : ∃ looked now, perform (.lookUp draft.name) s = (looked, now) :=
      ⟨_, _, rfl⟩
    have name : perform (.lookUp draft.candidate.name) s = (looked, now) := lookUp
    rw [Program.run_ask, Program.trace, name]
    cases looked with
    | error e => exact .unknown valid lookUp
    | ok found =>
        simp only
        split
        next faulty => exact .unfit valid lookUp faulty
        next fit =>
          have completes : Completes perform s draft found now :=
            ⟨valid, lookUp, Decidable.not_not.mp fit⟩
          obtain ⟨answer, after, asked⟩ :
              ∃ answer after, perform (.create (found.apply draft.candidate)) now = (answer, after) :=
            ⟨_, _, rfl⟩
          rw [store, Program.run_ask, Program.trace, asked]
          cases answer with
          | error e => exact .refused completes asked
          | ok p => exact .stored completes asked rfl

end

-----------------------------------------------------------------------------------------
-- Telling of a new person
-----------------------------------------------------------------------------------------

/-- A producer of events. Whether a message arrives may depend on all that was handed over before, latest
first.
-/
abbrev Producer := (earlier : List Octets) → (message : Octets) → Except DeliveryError Unit

/-- The surroundings, with the messages that a producer was handed so far, latest first. -/
structure Announcing where
  backend : Backend
  handed : List Octets := []

/-- Answers a call, by the producer if it publishes a message. -/
def Announcing.perform (producer : Producer) : (c : Call) → Announcing → c.Answer × Announcing
  | .publish message, s => (producer s.handed message, { s with handed := message :: s.handed })
  | c, s => ((s.backend.perform c).1, { s with backend := (s.backend.perform c).2 })

/-- An event as those read it who are told of it. -/
structure Announcement where
  event : String := ""
  person : Person := {}

/-- How an event is read: it has a name and a person, and nothing else. -/
def Announcement.layout : Json.Layout Announcement where
  title := "Announcement"
  blank := {}
  members :=
    [.of "event" .required Json.text fun event a => { a with event },
      .of "person" .required (Json.record Person.layout) fun person a => { a with person }]
  closed := true

/-- The printed members of the event about a new person. -/
def Announcement.entries (p : Person) : List (Json.Entry Announcement) :=
  [⟨"event", Json.printText "person.created", fun a => { a with event := "person.created" }⟩,
    ⟨"person", p.value.print, fun a => { a with person := p }⟩]

/-- A message is an object that tells of a new person. -/
structure Announces (message : Octets) (p : Person) : Prop where
  object : message.head? = some Json.Octet.openObject
  reads : Json.decode (Json.record Announcement.layout) message = .ok ⟨"person.created", p⟩

theorem createdEvent_eq (p : Person)
    : createdEvent p = Text.Utf8.encode (Json.printMembers
        ((Announcement.entries p).map fun entry => (entry.name, entry.text))) := by
  simp only [createdEvent, Json.Value.ofMembers, List.foldl_cons, List.foldl_nil, Json.Value.put,
    String.reduceEq, String.reduceLT, if_false, Json.Value.print, Json.Value.printMembersEach,
    Announcement.entries, List.map_cons, List.map_nil]

theorem announces_createdEvent (p : Person) : Announces (createdEvent p) p := by
  have taken : ∀ entry ∈ Announcement.entries p, entry.Taken Announcement.layout := by
    simp only [Announcement.entries, List.forall_mem_cons]
    exact ⟨.inl ⟨_, rfl, fun _ _ _ => Json.run_map_ok (Json.text_printText _ _)⟩,
      .inl ⟨_, rfl, fun _ _ _ => Json.run_map_ok (p.read_value _)⟩, List.forall_mem_nil _⟩
  have distinct : ((Announcement.entries p).map Json.Entry.name).Nodup := by
    simp [Announcement.entries]
  have complete : ∀ m ∈ Announcement.layout.members, m.presence = .required →
      m.name ∈ (Announcement.entries p).map Json.Entry.name := by
    simp [Announcement.layout, Announcement.entries, Json.Member.of]
  rw [createdEvent_eq]
  exact ⟨rfl, Json.decode_printMembers (by simp [Announcement.entries]) taken distinct complete⟩

-----------------------------------------------------------------------------------------
-- All or nothing
-----------------------------------------------------------------------------------------

/-- A call of the store of persons. -/
def Call.IsStored : Call → Prop
  | .create _ | .get _ | .list _ | .update _ | .delete _ => True
  | _ => False

/-- The draft is in order, everything is found about its name, and the record completed by that is in
order and taken by the store. The record has the name parts of the draft, without an empty patronymic,
and the next identifier.
-/
def Backend.Admits (b : Backend) (draft : Draft) (p : Person) : Prop :=
  draft.faults = []
    ∧ ∃ found, (b.lookUp draft.name).1 = .ok found
      ∧ (found.apply draft.candidate).faults = []
      ∧ b.refuses = false
      ∧ p = {
          id := some (b.ids b.issued)
          name := draft.name
          surname := draft.surname
          patronymic := draft.patronymic.filter (· ≠ "")
          age := found.age
          gender := found.gender
          nationality := found.nationality }

theorem Backend.Admits.unique {b : Backend} {draft : Draft} {p q : Person} (admits : b.Admits draft p)
    (admitsToo : b.Admits draft q)
    : p = q := by
  obtain ⟨-, found, finds, -, -, rfl⟩ := admits
  obtain ⟨-, other, findsToo, -, -, rfl⟩ := admitsToo
  rw [Except.ok.inj (finds.symm.trans findsToo)]

/-- A person is there that was not there before, in a row of its own behind all others, and one message
more was handed over, which tells of it.
-/
structure Announcing.Gains (before : Announcing) (p : Person) (message : Octets) (after : Announcing) :
    Prop where
  row : ∃ row, after.backend.table.rows = before.backend.table.rows ++ [row]
    ∧ row.person = .ok p
    ∧ row.isDeleted = false
    ∧ ∀ other ∈ before.backend.table.rows, other.personId ≠ row.personId
  handed : after.handed = message :: before.handed
  announces : Announces message p

/-- What the creation of a person comes to. -/
inductive Announcing.Ends (s : Announcing) (draft : Draft) :
    Except Error Person → List Answered → Announcing → Prop
  | ok {p : Person} {calls : List Answered} {after : Announcing} {message : Octets}
      (admits : s.backend.Admits draft p) (gains : s.Gains p message after)
      (order : calls.map Answered.call
        = [.lookUp draft.name, .create { p with id := none }, .publish message])
      : Ends s draft (.ok p) calls after
  | error {e : Error} {calls : List Answered} {after : Announcing}
      (refuses : ∀ p, ¬s.backend.Admits draft p)
      (table : after.backend.table = s.backend.table) (handed : after.handed = s.handed)
      : Ends s draft (.error e) calls after

section

variable {producer : Producer} {s : Announcing} {draft : Draft}

theorem apply_candidate (found : Enrichment) (draft : Draft) (id : Uuid)
    : { found.apply draft.candidate with id := some id }
      = { id := some id
          name := draft.name
          surname := draft.surname
          patronymic := draft.patronymic.filter (· ≠ "")
          age := found.age
          gender := found.gender
          nationality := found.nationality : Person } := by
  have patronymic : draft.patronymic.bind nonempty? = draft.patronymic.filter (· ≠ "") := by
    cases draft.patronymic with
    | none => rfl
    | some text => by_cases empty : text = "" <;> simp [nonempty?, empty, Option.filter]
  simp [Enrichment.apply, Draft.candidate, patronymic]

/-- A lookup leaves the store and the producer alone. -/
theorem lookUp_announcing {name : String} {looked : Except LookupError Enrichment} {now : Announcing}
    (looks : Announcing.perform producer (.lookUp name) s = (looked, now))
    : (s.backend.lookUp name).1 = looked ∧ now.handed = s.handed
      ∧ s.backend.SameStore now.backend ∧ s.backend.SameConditions now.backend := by
  have same : ((s.backend.lookUp name).1, { s with backend := (s.backend.lookUp name).2 })
      = (looked, now) := looks
  obtain ⟨rfl, rfl⟩ := Prod.mk.inj same
  exact ⟨rfl, rfl, ⟨rfl, rfl⟩, s.backend.perform_sameConditions (.lookUp name)⟩

/-- What the store takes after a lookup is gained, as it would have been before. -/
theorem stored_announcing {name : String} {looked : Except LookupError Enrichment} {p stored : Person}
    {now after : Announcing}
    (looks : Announcing.perform producer (.lookUp name) s = (looked, now))
    (takes : Announcing.perform producer (.create p) now = (.ok stored, after))
    : after.handed = s.handed ∧ s.backend.refuses = false
      ∧ stored = { p with id := some (s.backend.ids s.backend.issued) }
      ∧ s.backend.Gains [stored] after.backend := by
  obtain ⟨-, handed, store, conditions⟩ := lookUp_announcing looks
  have same : ((now.backend.perform (.create p)).1,
      { now with backend := (now.backend.perform (.create p)).2 }) = (.ok stored, after) := takes
  obtain ⟨answer, rfl⟩ := Prod.mk.inj same
  obtain ⟨free, own, gains⟩ := Backend.stored_of_create (Prod.ext answer rfl)
  rw [conditions.refuses store] at free
  rw [conditions.ids, store.issued] at own
  exact ⟨handed, free, own, store.gains.trans conditions.ids gains⟩

/-- What the store refuses after a lookup, it would have refused before. -/
theorem refused_announcing {name : String} {looked : Except LookupError Enrichment} {p : Person}
    {e : Store.Error} {now after : Announcing}
    (looks : Announcing.perform producer (.lookUp name) s = (looked, now))
    (fails : Announcing.perform producer (.create p) now = (.error e, after))
    : after.handed = s.handed ∧ s.backend.refuses = true
      ∧ after.backend.table = s.backend.table := by
  obtain ⟨-, handed, store, conditions⟩ := lookUp_announcing looks
  have same : ((now.backend.perform (.create p)).1,
      { now with backend := (now.backend.perform (.create p)).2 }) = (.error e, after) := fails
  obtain ⟨answer, rfl⟩ := Prod.mk.inj same
  obtain ⟨refuses, kept⟩ := Backend.refuses_of_create (Prod.ext answer rfl)
  rw [conditions.refuses store] at refuses
  exact ⟨handed, refuses, kept.table.trans store.table⟩

/-- The one person that is gained stands in a row of its own, with an identifier that no other has. -/
theorem row_of_gains {b after : Backend} {p : Person} (takes : b.refuses = false)
    (gains : b.Gains [p] after)
    : ∃ row, after.table.rows = b.table.rows ++ [row]
      ∧ row.person = .ok p
      ∧ row.isDeleted = false
      ∧ ∀ other ∈ b.table.rows, other.personId ≠ row.personId := by
  obtain ⟨gained, rows, read, own, live⟩ := gains.rows
  obtain ⟨row, rfl⟩ : ∃ row, gained = [row] :=
    List.length_eq_one_iff.mp (by simpa using congrArg List.length read)
  have free : b.table.rows.any (·.personId = (b.ids b.issued).text) = false :=
    (Bool.or_eq_false_iff.mp takes).2
  have person : row.person = .ok p := by simpa using read
  have id : row.personId = (b.ids b.issued).text := by simpa using own
  refine ⟨row, rows, person, live row (by simp), fun other member same => ?_⟩
  exact absurd (same.trans id) (by simpa using List.any_eq_false.mp free other member)

/-- What a creation comes to where events are handed to a producer, by the stage that ends it. -/
theorem Creation.announcing {result : Except Error Person} {calls : List Answered} {after : Announcing}
    (made : Creation (Announcing.perform producer) s draft result calls after)
    : Announcing.Ends s draft result calls after := by
  cases made with
  | invalid faulty => exact .error (fun p admits => faulty admits.1) rfl rfl
  | unknown valid fails =>
      obtain ⟨same, handed, store, -⟩ := lookUp_announcing fails
      refine .error (fun p admits => ?_) store.table handed
      obtain ⟨-, found, finds, -⟩ := admits
      cases same.symm.trans finds
  | unfit valid finds faulty =>
      obtain ⟨same, handed, store, -⟩ := lookUp_announcing finds
      refine .error (fun p admits => ?_) store.table handed
      obtain ⟨-, other, findsToo, fit, -⟩ := admits
      obtain rfl := Except.ok.inj (same.symm.trans findsToo)
      exact faulty fit
  | refused completes fails =>
      obtain ⟨handed, refuses, table⟩ := refused_announcing completes.finds fails
      refine .error (fun p admits => ?_) table handed
      obtain ⟨-, -, -, -, takes, -⟩ := admits
      cases refuses.symm.trans takes
  | stored completes takes told =>
      obtain ⟨handed, free, rfl, gains⟩ := stored_announcing completes.finds takes
      obtain ⟨-, rfl⟩ := Prod.mk.inj told.symm
      refine .ok ⟨completes.valid, _, (lookUp_announcing completes.finds).1, completes.fit, free,
        apply_candidate _ _ _⟩ ⟨row_of_gains free gains, ?_, announces_createdEvent _⟩ rfl
      exact congrArg (List.cons _) handed

/-- No call of the store comes before the lookup has succeeded and both checks have passed. -/
theorem Creation.before_stored {σ : Type} {perform : (c : Call) → σ → c.Answer × σ} {s after : σ}
    {result : Except Error Person} {calls earlier later : List Answered} {done : Answered}
    (made : Creation perform s draft result calls after)
    (cut : calls = earlier ++ done :: later) (stored : done.call.IsStored)
    : draft.faults = []
      ∧ ∃ found, ⟨.lookUp draft.name, .ok found⟩ ∈ earlier
        ∧ (found.apply draft.candidate).faults = [] := by
  -- the first call is the lookup, so what is stored comes behind it
  have behind {first : Answered} {rest : List Answered} (unlike : ¬first.call.IsStored)
      (same : first :: rest = earlier ++ done :: later) : first ∈ earlier ∧ rest ≠ [] := by
    cases earlier with
    | nil =>
        obtain ⟨rfl, -⟩ := List.cons.inj same
        exact absurd stored unlike
    | cons head tail =>
        obtain ⟨rfl, rfl⟩ := List.cons.inj same
        exact ⟨List.mem_cons_self, by simp⟩
  cases made with
  | invalid => simp at cut
  | unknown => exact absurd rfl (behind id cut).2
  | unfit => exact absurd rfl (behind id cut).2
  | refused completes | stored completes =>
      exact ⟨completes.valid, _, (behind id cut).1, completes.fit⟩

/-- Whether events arrive makes no difference to the result and to what is stored. -/
theorem run_create_producer (producer other : Producer) (s : Announcing) (draft : Draft)
    : ((create draft).run (Announcing.perform other) s).1
        = ((create draft).run (Announcing.perform producer) s).1
      ∧ ((create draft).run (Announcing.perform other) s).2.backend
        = ((create draft).run (Announcing.perform producer) s).2.backend := by
  rw [create]
  split
  next => exact ⟨rfl, rfl⟩
  next =>
    have looks : Announcing.perform other (.lookUp draft.candidate.name) s
        = Announcing.perform producer (.lookUp draft.candidate.name) s := rfl
    simp only [Program.run_ask, looks]
    generalize Announcing.perform producer (.lookUp draft.candidate.name) s = looked
    obtain ⟨answer, now⟩ := looked
    cases answer with
    | error e => exact ⟨rfl, rfl⟩
    | ok found =>
        simp only
        split
        next => exact ⟨rfl, rfl⟩
        next =>
          have asks : Announcing.perform other (.create (found.apply draft.candidate)) now
              = Announcing.perform producer (.create (found.apply draft.candidate)) now := rfl
          simp only [store, Program.run_ask, asks]
          cases (Announcing.perform producer (.create (found.apply draft.candidate)) now).1 with
          | error e => exact ⟨rfl, rfl⟩
          | ok p => exact ⟨rfl, rfl⟩

end

/-- Creating a person is all or nothing, whatever the draft, the surroundings and the producer of events.
It succeeds exactly if the draft is admitted, and then adds one row that holds the person, and hands over
one message, after the row is there, that tells of the person. Otherwise no row and no message is
added. The store is not called before the lookup has succeeded and both checks have passed, nothing is
called for a faulty draft, and whether events arrive makes no difference.
-/
theorem create_all_or_nothing (producer : Producer) (s : Announcing) (draft : Draft)
    : let ended := (create draft).run (Announcing.perform producer) s
      let calls := (create draft).trace (Announcing.perform producer) s
      (∀ p, ended.1 = .ok p ↔ s.backend.Admits draft p)
        ∧ (∀ p, ended.1 = .ok p →
            ∃ message, s.Gains p message ended.2
              ∧ calls.map Answered.call
                = [.lookUp draft.name, .create { p with id := none }, .publish message])
        ∧ (∀ e, ended.1 = .error e →
            ended.2.backend.table = s.backend.table ∧ ended.2.handed = s.handed)
        ∧ (∀ earlier done later, calls = earlier ++ done :: later → done.call.IsStored →
            draft.faults = []
              ∧ ∃ found, ⟨.lookUp draft.name, .ok found⟩ ∈ earlier
                ∧ (found.apply draft.candidate).faults = [])
        ∧ (draft.faults ≠ [] → calls = [])
        ∧ ∀ other : Producer,
            let endedToo := (create draft).run (Announcing.perform other) s
            endedToo.1 = ended.1 ∧ endedToo.2.backend = ended.2.backend := by
  intro ended calls
  have made : Creation (Announcing.perform producer) s draft ended.1 calls ended.2 := creation _ s draft
  have indifferent (other : Producer)
      : ((create draft).run (Announcing.perform other) s).1 = ended.1
        ∧ ((create draft).run (Announcing.perform other) s).2.backend = ended.2.backend :=
    run_create_producer producer other s draft
  clear_value ended calls
  obtain ⟨result, after⟩ := ended
  have nothing (faulty : draft.faults ≠ []) : calls = [] := by
    cases made with
    | invalid => rfl
    | unknown valid | unfit valid => exact absurd valid faulty
    | refused completes | stored completes => exact absurd completes.valid faulty
  have comes := made.announcing
  refine ⟨fun p => ?_, fun p ok => ?_, fun e error => ?_,
    fun earlier done later => made.before_stored, nothing, indifferent⟩
  · cases comes with
    | ok admits gains order =>
        refine ⟨fun ok => Except.ok.inj ok ▸ admits, fun admitsToo => ?_⟩
        rw [admits.unique admitsToo]
    | error refuses => exact ⟨fun ok => (nomatch ok), fun admits => absurd admits (refuses p)⟩
  · cases comes with
    | ok admits gains order =>
        obtain rfl := Except.ok.inj ok
        exact ⟨_, gains, order⟩
    | error => cases ok
  · cases comes with
    | ok => cases error
    | error refuses table handed => exact ⟨table, handed⟩

/-- A person whose event does not arrive is stored all the same, and an empty patronymic is none. -/
theorem create_all_or_nothing_undelivered
    : let draft : Draft := { name := "Ada", surname := "Byron", patronymic := some "" }
      let producer : Producer := fun _ _ => .error ⟨"events"⟩
      let start : Announcing := ⟨.answering .nil, []⟩
      let ended := (create draft).run (Announcing.perform producer) start
      let ada : Person :=
        { id := some .nil, name := "Ada", surname := "Byron", age := some 36, gender := some "female"
          nationality := some "GB" }
      ended.1 = .ok ada
        ∧ (∃ row, ended.2.backend.table.rows = [row] ∧ row.person = .ok ada)
        ∧ ∃ message, ended.2.handed = [message] ∧ Announces message ada := by
  intro draft producer start ended ada
  obtain ⟨admitted, gained, -⟩ := create_all_or_nothing producer start draft
  have admits : start.backend.Admits draft ada :=
    ⟨by decide +kernel, { age := some 36, gender := some "female", nationality := some "GB" },
      by decide +kernel, by decide +kernel, by decide +kernel, rfl⟩
  have ok : ended.1 = .ok ada := (admitted ada).mpr admits
  obtain ⟨message, gains, -⟩ := gained ada ok
  obtain ⟨row, rows, person, -⟩ := gains.row
  exact ⟨ok, ⟨row, rows, person⟩, message, gains.handed, gains.announces⟩

end PersonRegistry.Service
