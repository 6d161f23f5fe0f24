import PersonRegistry.Proofs.Service.Creation
import PersonRegistry.Queue.Pipeline

/-! What becomes of one message of the pipeline: the outcome, the report about it, and the person stored. -/

namespace PersonRegistry

open Service (Answered Backend Call Error Program)
open Text (Octets)

-----------------------------------------------------------------------------------------
-- What a message comes to
-----------------------------------------------------------------------------------------

namespace Queue

/-- What a message comes to, as far as it depends on the message and the services alone. -/
inductive Verdict
  /-- It cannot be read, or it describes no valid person. -/
  | rejected (rejection : Rejection)
  /-- A trait of the person could not be looked up. -/
  | unknown
  /-- It describes a person who may be stored. -/
  | valid (p : Person)

/-- A draft is checked, completed by what the services infer, and checked again. -/
def verdictOn (b : Backend) (draft : Draft) : Verdict :=
  if draft.faults ≠ [] then .rejected (.invalid draft.faults)
  else
    match (b.lookUp draft.candidate.name).1 with
    | .error _ => .unknown
    | .ok found =>
        let p := found.apply draft.candidate
        if p.faults ≠ [] then .rejected (.invalid p.faults) else .valid p

def verdict (b : Backend) (message : Octets) : Verdict :=
  match Draft.decode message with
  | .error error => .rejected (.malformed error)
  | .ok draft => verdictOn b draft

/-- The outcome of a message in its surroundings. -/
def Verdict.outcome (b : Backend) : Verdict → Outcome
  | .rejected _ => if b.delivers then .reported else .dropped
  | .unknown => .dropped
  | .valid p => if b.refuses then .dropped else .saved { p with id := some (b.ids b.issued) }

/-- The report about a message with a verdict, if it is rejected, and whether the report arrives. -/
def Verdict.report? (b : Backend) (message : Octets) : Verdict → Option (Octets × Bool)
  | .rejected rejection => some ((Report.of message rejection).encode, b.delivers)
  | _ => none

/-- The report that a call sent, and whether it arrived. -/
def report? : Answered → Option (Octets × Bool)
  | ⟨.report message, answer⟩ => some (message, answer.isOk)
  | _ => none

/-- The person that an outcome has stored. -/
def Outcome.persons : Outcome → List Person
  | .saved p => [p]
  | _ => []

@[simp] theorem Outcome.persons_saved (p : Person) : (Outcome.saved p).persons = [p] := rfl

@[simp] theorem Outcome.persons_idle : Outcome.idle.persons = [] := rfl

@[simp] theorem Outcome.persons_reported : Outcome.reported.persons = [] := rfl

@[simp] theorem Outcome.persons_dropped : Outcome.dropped.persons = [] := rfl

theorem verdict_congr {b after : Backend} (same : b.SameServices after) (message : Octets)
    : verdict after message = verdict b message := by
  have found (name : String) : (after.lookUp name).1 = (b.lookUp name).1 := by
    rw [Backend.lookUp, Backend.lookUp, same.replies, same.deadline]
  rw [verdict, verdict]
  split
  next => rfl
  next => rw [verdictOn, verdictOn, found]

-----------------------------------------------------------------------------------------
-- Creating the person of a message
-----------------------------------------------------------------------------------------

/-- How a draft is answered in some surroundings, and what that leaves of them. -/
inductive Created (b : Backend) : Verdict → Except Error Person → Backend → Prop
  | invalid {faults : Faults} {after : Backend} (same : b.SameStore after)
    : Created b (.rejected (.invalid faults)) (.error (.invalid faults)) after
  | unknown {e : Inference.LookupError} {after : Backend} (same : b.SameStore after)
    : Created b .unknown (.error (.lookup e)) after
  | refused {p : Person} {e : Store.Error} {after : Backend} (refuses : b.refuses = true)
      (same : b.SameStore after)
    : Created b (.valid p) (.error (.store e)) after
  | stored {p : Person} {after : Backend} (takes : b.refuses = false)
      (gains : b.Gains [{ p with id := some (b.ids b.issued) }] after)
    : Created b (.valid p) (.ok { p with id := some (b.ids b.issued) }) after

/-- Where a draft is answered later, but under the same conditions and by the same store, it is as if it was
answered now.
-/
theorem Created.of_same {b now after : Backend} {v : Verdict} {answer : Except Error Person}
    (created : Created now v answer after) (conditions : b.SameConditions now)
    (store : b.SameStore now)
    : Created b v answer after := by
  have kept : ∀ {after : Backend}, now.SameStore after → b.SameStore after := fun same =>
    ⟨same.table.trans store.table, same.issued.trans store.issued⟩
  have refuses := conditions.refuses store
  cases created with
  | invalid same => exact .invalid (kept same)
  | unknown same => exact .unknown (kept same)
  | refused refused same => exact .refused (refuses ▸ refused) (kept same)
  | stored takes gains =>
      rw [conditions.ids, store.issued] at gains ⊢
      exact .stored (refuses ▸ takes) (store.gains.trans conditions.ids gains)

/-- A draft is answered as the verdict on it says, by the stage that ends the creation of the person.
Whether the event about it arrives makes no difference.
-/
theorem created (b : Backend) (draft : Draft)
    : Created b (verdictOn b draft) ((Service.create draft).run Backend.perform b).1
        ((Service.create draft).run Backend.perform b).2 := by
  have made := Service.creation Backend.perform b draft
  have store := b.perform_sameStore (c := .lookUp draft.name) trivial
  have conditions := b.perform_sameConditions (.lookUp draft.name)
  have looked : (b.lookUp draft.candidate.name).1 = (b.perform (.lookUp draft.name)).1 := rfl
  rw [verdictOn, looked]
  generalize (Service.create draft).trace Backend.perform b = calls at made
  generalize (Service.create draft).run Backend.perform b = ended at made ⊢
  obtain ⟨answer, after⟩ := ended
  cases made with
  | invalid faulty =>
      rw [if_pos faulty]
      exact .invalid ⟨rfl, rfl⟩
  | unknown valid fails =>
      rw [fails] at store ⊢
      rw [if_neg (not_not_intro valid)]
      exact .unknown store
  | unfit valid finds faulty =>
      rw [finds] at store ⊢
      simp only [if_neg (not_not_intro valid), if_pos faulty]
      exact .invalid store
  | refused completes fails =>
      obtain ⟨refuses, kept⟩ := Backend.refuses_of_create fails
      rw [completes.finds] at store conditions ⊢
      simp only [if_neg (not_not_intro completes.valid), if_neg (not_not_intro completes.fit)]
      exact (Created.refused refuses kept).of_same conditions store
  | @stored found p now after _ _ completes takes told =>
      obtain ⟨free, rfl, gains⟩ := Backend.stored_of_create takes
      have ids := (now.perform_sameConditions (.create (found.apply draft.candidate))).ids
      have published := after.perform_sameStore
        (c := .publish (Service.createdEvent
          { found.apply draft.candidate with id := some (now.ids now.issued) })) trivial
      rw [takes] at ids
      rw [told] at published
      rw [completes.finds] at store conditions ⊢
      simp only [if_neg (not_not_intro completes.valid), if_neg (not_not_intro completes.fit)]
      exact (Created.stored free (gains.trans ids published.gains)).of_same conditions store

/-- No report is sent while the person of a message is created. -/
theorem reports_create (b : Backend) (draft : Draft)
    : ((Service.create draft).trace Backend.perform b).filterMap report? = [] := by
  have made := Service.creation Backend.perform b draft
  generalize (Service.create draft).trace Backend.perform b = calls at made ⊢
  generalize (Service.create draft).run Backend.perform b = ended at made
  obtain ⟨answer, after⟩ := ended
  cases made <;> rfl

-----------------------------------------------------------------------------------------
-- One message
-----------------------------------------------------------------------------------------

/-- What became of a message: the outcome, the calls made for it, and what is left of its surroundings. -/
structure Handled (b : Backend) (message : Octets) (outcome : Outcome) (calls : List Answered)
    (after : Backend)
    : Prop where
  settled : outcome = (verdict b message).outcome b
  reports : calls.filterMap report? = ((verdict b message).report? b message).toList
  gains : b.Gains outcome.persons after
  conditions : b.SameConditions after

theorem run_sameConditions {α : Type} (program : Program α) (b : Backend)
    : b.SameConditions (program.run Backend.perform b).2 :=
  program.run_induction (fun c after same => same.trans (after.perform_sameConditions c)) (.refl b)

/-- Rejecting a message sends one report, and stores nobody. -/
theorem run_reject (b : Backend) (message : Octets) (rejection : Rejection)
    : ((reject message rejection).run Backend.perform b).1
        = (if b.delivers then .reported else .dropped)
      ∧ ((reject message rejection).trace Backend.perform b).filterMap report?
        = [((Report.of message rejection).encode, b.delivers)]
      ∧ b.SameStore ((reject message rejection).run Backend.perform b).2 := by
  have sent := b.isOk_report (Report.of message rejection).encode
  have same := b.perform_sameStore (c := .report (Report.of message rejection).encode) trivial
  rw [reject, Program.run_ask, Program.trace]
  cases answer : (b.perform (.report (Report.of message rejection).encode)).1 with
  | ok _ =>
      rw [answer] at sent
      rw [← sent]
      simp only [answer]
      exact ⟨rfl, rfl, same⟩
  | error e =>
      rw [answer] at sent
      rw [← sent]
      simp only [answer]
      exact ⟨rfl, rfl, same⟩

/-- A message that is rejected after calls that left the store alone gets one report. -/
theorem Handled.of_reject {b now : Backend} {message : Octets} {rejection : Rejection}
    {calls : List Answered} (rejected : verdict b message = .rejected rejection)
    (silent : calls.filterMap report? = []) (conditions : b.SameConditions now)
    (store : b.SameStore now)
    : Handled b message ((reject message rejection).run Backend.perform now).1
        (calls ++ (reject message rejection).trace Backend.perform now)
        ((reject message rejection).run Backend.perform now).2 := by
  obtain ⟨outcome, reports, same⟩ := run_reject now message rejection
  rw [conditions.delivers] at outcome reports
  refine ⟨?_, ?_, ?_, conditions.trans (run_sameConditions _ now)⟩
  · rw [outcome, rejected]
    rfl
  · rw [List.filterMap_append, silent, reports, rejected]
    rfl
  · rw [outcome]
    cases b.delivers <;> exact store.gains.trans conditions.ids same.gains

/-- A message that is not rejected gets no report. -/
theorem Handled.of_done {b after : Backend} {message : Octets} {v : Verdict} {outcome : Outcome}
    {calls : List Answered} (same : verdict b message = v) (accepted : v.report? b message = none)
    (settled : outcome = v.outcome b) (silent : calls.filterMap report? = [])
    (gains : b.Gains outcome.persons after) (conditions : b.SameConditions after)
    : Handled b message outcome (calls ++ []) after := by
  refine ⟨same ▸ settled, ?_, gains, conditions⟩
  rw [List.append_nil, silent, same, accepted]
  rfl

/-- A message is handled as its verdict says, by cases on how its draft is answered. -/
theorem handled (b : Backend) (message : Octets)
    : Handled b message ((handle message).run Backend.perform b).1
        ((handle message).trace Backend.perform b) ((handle message).run Backend.perform b).2 := by
  cases decoded : Draft.decode message with
  | error error =>
      have rejected : verdict b message = .rejected (.malformed error) := by rw [verdict, decoded]
      rw [handle, decoded]
      exact @Handled.of_reject b b message _ [] rejected rfl (.refl b) ⟨rfl, rfl⟩
  | ok draft =>
      have same : verdict b message = verdictOn b draft := by rw [verdict, decoded]
      have silent := reports_create b draft
      have conditions := run_sameConditions (Service.create draft) b
      have created := created b draft
      rw [handle, decoded]
      simp only [Program.run_bind, Program.trace_bind]
      generalize (Service.create draft).run Backend.perform b = ended at conditions created
      obtain ⟨answer, after⟩ := ended
      rw [← same] at created
      generalize verdict_ : verdict b message = v at created
      cases created with
      | invalid store => exact .of_reject verdict_ silent conditions store
      | unknown store => exact .of_done verdict_ rfl rfl silent store.gains conditions
      | refused refuses store =>
          exact .of_done verdict_ rfl (if_pos refuses).symm silent store.gains conditions
      | stored takes gains =>
          exact .of_done verdict_ rfl (if_neg (ne_true_of_eq_false takes)).symm silent gains conditions

end Queue
end PersonRegistry
