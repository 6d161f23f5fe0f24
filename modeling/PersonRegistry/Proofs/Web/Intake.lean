import PersonRegistry.Proofs.Queue.Messages
import PersonRegistry.Web.Api

/-! Persons come in over the web and from the queue. Whichever way one comes, it is judged alike, and the same
becomes of it.
-/

namespace PersonRegistry

open Service (Backend)
open Store (Row Table)
open Text (Octets)
open Time (Span)

-----------------------------------------------------------------------------------------
-- Reports that differ
-----------------------------------------------------------------------------------------

namespace Queue

theorem Rejection.message_malformed (error : Json.DecodeError)
    : (Rejection.malformed error).message = "malformed message: " ++ error.message :=
  rfl

theorem Rejection.message_invalid (faults : Faults)
    : (Rejection.invalid faults).message = faults.message :=
  rfl

theorem Rejection.head_malformed (error : Json.DecodeError)
    : (Rejection.malformed error).message.toList.head? = some 'm' := by
  simp [message_malformed]

theorem Rejection.head_invalid (faults : Faults)
    : (Rejection.invalid faults).message.toList.head? = some 'v' := by
  rw [message_invalid, Faults.message]
  split <;> simp

theorem Report.error_of (message : Octets) (rejection : Rejection)
    : (Report.of message rejection).error = rejection.message :=
  rfl

theorem Report.message_of (message : Octets) (rejection other : Rejection)
    : (Report.of message rejection).message = (Report.of message other).message :=
  rfl

theorem Report.error_eq_of_encode {report other : Report} (alike : report.message = other.message)
    (same : report.encode = other.encode)
    : Json.printText report.error = Json.printText other.error := by
  have printed : report.print = other.print := Text.Utf8.encode_injective same
  rw [print, print, alike] at printed
  simpa [Json.printMembers, Json.separated] using printed

/-- A report about a message that cannot be read is none about a person who is not valid. -/
theorem Report.encode_malformed_ne_invalid (message : Octets) (error : Json.DecodeError) (faults : Faults)
    : (Report.of message (.malformed error)).encode ≠ (Report.of message (.invalid faults)).encode := by
  intro same
  have printed := error_eq_of_encode (message_of message _ _) same
  rw [error_of, error_of] at printed
  obtain ⟨more, malformed⟩ := List.head?_eq_some_iff.mp (Rejection.head_malformed error)
  obtain ⟨others, invalid⟩ := List.head?_eq_some_iff.mp (Rejection.head_invalid faults)
  rw [Json.printText, Json.printText, malformed, invalid] at printed
  simp [Json.printChar] at printed

end Queue

-----------------------------------------------------------------------------------------
-- Rows but for their identifiers
-----------------------------------------------------------------------------------------

namespace Store

/-- A row without its identifier. -/
def Row.unnumbered (row : Row) : Row := { row with personId := "" }

/-- Two tables have got the same rows since they were one, but for the identifiers of those rows. -/
def Table.GrownAlike (before one other : Table) : Prop :=
  ∃ gained others, one.rows = before.rows ++ gained ∧ other.rows = before.rows ++ others
    ∧ gained.map Row.unnumbered = others.map Row.unnumbered

theorem Table.GrownAlike.refl (table : Table) : table.GrownAlike table table :=
  ⟨[], [], (List.append_nil _).symm, (List.append_nil _).symm, rfl⟩

end Store

namespace Service

variable {b after : Backend} {draft : Draft} {p : Person}

theorem Backend.rows_of_create {stored : Person} (takes : b.perform (.create p) = (.ok stored, after))
    : after.table.rows = b.table.rows ++ [.ofPerson (b.ids b.issued) b.now p] := by
  have up : b.isDown .storeCreate = false :=
    (Bool.or_eq_false_iff.mp (Backend.stored_of_create takes).1).1
  rw [perform_create up, Backend.create] at takes
  split at takes
  next => cases takes
  next created =>
    rw [Table.create] at created
    split at created
    next => cases created
    next =>
      cases created
      cases takes
      rfl

/-- The person of a draft is stored as soon as its name has been looked up. -/
theorem rows_create (made : ((create draft).run Backend.perform b).1 = .ok p)
    : ((create draft).run Backend.perform b).2.table.rows
      = b.table.rows ++ [.ofPerson (b.ids b.issued) (b.lookUp draft.name).2.now p] := by
  have creation := creation Backend.perform b draft
  generalize (create draft).trace Backend.perform b = calls at creation
  generalize (create draft).run Backend.perform b = ended at made creation ⊢
  obtain ⟨answer, after⟩ := ended
  obtain rfl : answer = .ok p := made
  cases creation with
  | @stored found _ now stored _ _ completes takes told =>
      have published := Backend.table_perform (b := stored) (c := .publish (createdEvent p)) trivial
      have looked : (b.lookUp draft.name).2 = now := congrArg Prod.snd completes.finds
      obtain ⟨-, own, -⟩ := Backend.stored_of_create takes
      rw [told] at published
      rw [published, Backend.rows_of_create takes, own, ← looked]
      rfl

/-- With identifiers from elsewhere the same becomes of a draft, if the next one of these is taken just where the
next one of those is.
-/
theorem create_grows (ids : Nat → Uuid) (alike : { b with ids }.refuses = b.refuses) (draft : Draft)
    : b.table.GrownAlike ((create draft).run Backend.perform b).2.table
        ((create draft).run Backend.perform { b with ids }).2.table := by
  have created := Queue.created b draft
  have createdToo : Queue.Created { b with ids } (Queue.verdictOn b draft)
      ((create draft).run Backend.perform { b with ids }).1
      ((create draft).run Backend.perform { b with ids }).2 := Queue.created { b with ids } draft
  have rows := @rows_create b draft
  have rowsToo := @rows_create { b with ids } draft
  generalize (create draft).run Backend.perform b = ended at created rows ⊢
  generalize (create draft).run Backend.perform { b with ids } = endedToo at createdToo rowsToo ⊢
  obtain ⟨answer, after⟩ := ended
  obtain ⟨answerToo, afterToo⟩ := endedToo
  generalize Queue.verdictOn b draft = v at created createdToo
  -- the verdict is the same, so both fail or both store the person
  have unchanged (same : b.SameStore after) (sameToo : { b with ids }.SameStore afterToo)
      : b.table.GrownAlike after.table afterToo.table := by
    rw [same.table, sameToo.table]
    exact .refl b.table
  cases created with
  | invalid same =>
      cases createdToo with
      | invalid sameToo => exact unchanged same sameToo
  | unknown same =>
      cases createdToo with
      | unknown sameToo => exact unchanged same sameToo
  | refused refuses same =>
      cases createdToo with
      | refused _ sameToo => exact unchanged same sameToo
      | stored takes => rw [alike, refuses] at takes; cases takes
  | stored takes =>
      cases createdToo with
      | refused refuses => rw [alike, takes] at refuses; cases refuses
      | stored => exact ⟨_, _, rows rfl, rowsToo rfl, rfl⟩

end Service

-----------------------------------------------------------------------------------------
-- Requests that ask to create a person
-----------------------------------------------------------------------------------------

namespace Web

open Queue (Outcome Report Verdict verdict verdictOn)
open Service (Program)

variable {b : Backend} {request : Request}

/-- How a request to create a person is answered, by the verdict on its body. -/
inductive Answers (b : Backend) : Verdict → Response → Prop
  | malformed {error : Json.DecodeError} {response : Response} (status : response.status = 400)
    : Answers b (.rejected (.malformed error)) response
  | invalid {faults : Faults} {response : Response} (status : response.status = 422)
    : Answers b (.rejected (.invalid faults)) response
  | unknown {response : Response} (status : response.status = 502 ∨ response.status = 504)
    : Answers b .unknown response
  | refused {p : Person} {response : Response} (refuses : b.refuses = true)
      (status : response.status = 500)
    : Answers b (.valid p) response
  | stored {p : Person} (takes : b.refuses = false)
    : Answers b (.valid p) (personResponse 201 { p with id := some (b.ids b.issued) })

theorem lookupResponse_status (e : Inference.LookupError)
    : (lookupResponse e).status = 502 ∨ (lookupResponse e).status = 504 := by
  rw [lookupResponse]
  split
  next => exact .inr rfl
  next =>
    simp only
    split <;> exact .inl rfl

theorem respond_persons_post (span : Span) (posts : request.method = "POST")
    (path : Resource.ofPath? request.target.path = some .persons)
    : respond span request = respondCreate request := by
  rw [respond, path]
  simp only [posts]

/-- A body that says it is JSON and keeps to the limit is read as a message is. -/
theorem readBody_cases (json : (Header.firstText? "content-type" request.headers).any MediaType.isJson = true)
    (small : request.body.length ≤ bodyLimit)
    : (∃ draft, Draft.decode request.body = .ok draft ∧ readBody Draft.decode request = .ok draft)
      ∨ ∃ error reason, Draft.decode request.body = .error error
        ∧ readBody Draft.decode request = .error (.badRequest reason) := by
  rw [readBody, json, if_neg (by decide), if_neg (Nat.not_lt.mpr small)]
  cases Draft.decode request.body with
  | ok draft => exact .inl ⟨draft, rfl, rfl⟩
  | error error => exact .inr ⟨error, _, rfl, rfl⟩

/-- What was created by a request is stored as a draft is. -/
theorem run_answering (draft : Draft)
    : b.run (answering (personResponse 201) (Service.create draft))
      = (match ((Service.create draft).run Backend.perform b).1 with
          | .ok p => personResponse 201 p
          | .error e => errorResponse e,
        ((Service.create draft).run Backend.perform b).2) := by
  rw [answering, Backend.run, Program.run_bind]
  cases ((Service.create draft).run Backend.perform b).1 <;> rfl

theorem answers_create (draft : Draft)
    : Answers b (verdictOn b draft) (b.run (answering (personResponse 201) (Service.create draft))).1 := by
  have created := Queue.created b draft
  rw [run_answering]
  generalize (Service.create draft).run Backend.perform b = ended at created ⊢
  obtain ⟨answer, after⟩ := ended
  generalize verdictOn b draft = v at created ⊢
  cases created with
  | invalid => exact .invalid rfl
  | unknown => exact .unknown (lookupResponse_status _)
  | refused refuses => exact .refused refuses rfl
  | stored takes => exact .stored takes

theorem table_reject (b : Backend) (message : Octets) (rejection : Queue.Rejection)
    : ((Queue.reject message rejection).run Backend.perform b).2.table = b.table :=
  (Queue.run_reject b message rejection).2.2.table

/-- A message that can be read leaves the table as its draft does. -/
theorem table_handle {message : Octets} {draft : Draft} (decoded : Draft.decode message = .ok draft)
    : ((Queue.handle message).run Backend.perform b).2.table
      = ((Service.create draft).run Backend.perform b).2.table := by
  rw [Queue.handle, decoded]
  simp only [Program.run_bind]
  generalize (Service.create draft).run Backend.perform b = ended
  obtain ⟨answer, after⟩ := ended
  split
  next => rfl
  next => exact table_reject after message _
  next => rfl

/-- A person comes in by a request just as by a message. Whatever the body, the request that asks to create a
person is answered by the verdict on it, and leaves the table as the message does, but for the identifier.
-/
theorem respond_post (ids : Nat → Uuid) (span : Span) (posts : request.method = "POST")
    (path : Resource.ofPath? request.target.path = some .persons)
    (json : (Header.firstText? "content-type" request.headers).any MediaType.isJson = true)
    (small : request.body.length ≤ bodyLimit) (alike : { b with ids }.refuses = b.refuses)
    : Answers b (verdict b request.body) (b.run (respond span request)).1
      ∧ b.table.GrownAlike (b.run (respond span request)).2.table
        (Backend.run { b with ids } (Queue.handle request.body)).2.table := by
  rw [respond_persons_post span posts path, respondCreate, verdict]
  obtain ⟨draft, decoded, read⟩ | ⟨error, reason, decoded, read⟩ := readBody_cases json small
  · rw [read, decoded]
    refine ⟨answers_create draft, ?_⟩
    rw [reading, run_answering, Backend.run, table_handle decoded]
    exact Service.create_grows ids alike draft
  · rw [read, decoded]
    refine ⟨.malformed rfl, ?_⟩
    rw [Queue.handle, decoded, Backend.run, Backend.run, table_reject]
    exact .refl b.table

/-- A response and what became of the message agree. -/
structure Agrees (b : Backend) (message : Octets) (response : Response) (outcome : Outcome)
    (reports : List (Octets × Bool))
    : Prop where
  succeeds : response.status = 201 ↔ ∃ p, outcome = .saved p
  person : ∀ p, outcome = .saved p → response = personResponse 201 { p with id := some (b.ids b.issued) }
  refused : response.status = 400 ∨ response.status = 422 ↔ outcome = .reported
  malformed : response.status = 400 ↔
    ∃ error, reports = [((Report.of message (.malformed error)).encode, true)]
  invalid : response.status = 422 ↔
    ∃ faults, reports = [((Report.of message (.invalid faults)).encode, true)]
  fails : response.status = 500 ∨ response.status = 502 ∨ response.status = 504 ↔ outcome = .dropped

/-- What answers a verdict agrees with what it comes to as a message, by cases on the verdict. -/
theorem Answers.agrees {other : Backend} {v : Verdict} {response : Response} (answers : Answers b v response)
    (delivers : other.delivers = true) (alike : other.refuses = b.refuses) (message : Octets)
    : Agrees b message response (v.outcome other) (v.report? other message).toList := by
  have told (error : Json.DecodeError) (faults : Faults) :=
    Report.encode_malformed_ne_invalid message error faults
  cases answers with
  | @malformed error _ status =>
      have outcome : (Verdict.rejected (.malformed error)).outcome other = .reported := if_pos delivers
      rw [outcome, Verdict.report?, delivers]
      refine ⟨?_, ?_, ?_, ⟨fun _ => ⟨error, rfl⟩, fun _ => status⟩, ?_, ?_⟩ <;> simp [status, told]
  | @invalid faults _ status =>
      have outcome : (Verdict.rejected (.invalid faults)).outcome other = .reported := if_pos delivers
      rw [outcome, Verdict.report?, delivers]
      refine ⟨?_, ?_, ?_, ?_, ⟨fun _ => ⟨faults, rfl⟩, fun _ => status⟩, ?_⟩ <;>
        simp [status, (told _ _).symm]
  | unknown status =>
      have reports : Verdict.unknown.report? other message = none := rfl
      rw [reports, Verdict.outcome]
      obtain status | status := status <;> constructor <;> simp [status]
  | @refused p _ refuses status =>
      have reports : (Verdict.valid p).report? other message = none := rfl
      have outcome : (Verdict.valid p).outcome other = .dropped := if_pos (alike.trans refuses)
      rw [reports, outcome]
      constructor <;> simp [status]
  | @stored p takes =>
      have reports : (Verdict.valid p).report? other message = none := rfl
      have outcome : (Verdict.valid p).outcome other
          = .saved { p with id := some (other.ids other.issued) } :=
        if_neg (ne_true_of_eq_false (alike.trans takes))
      have status (p : Person) : (personResponse 201 p).status = 201 := rfl
      rw [reports, outcome]
      constructor <;> simp [status]

/-- Both ways into the register agree, whatever the body of the request, the state of the service and the replies
of the services asked, as long as reports arrive. The request succeeds just if the message is saved, with the
same person but for the identifier. It is refused as a bad request just if a report says that the message
cannot be read, and as an invalid one just if it says what is wrong with the person. It fails just if the
message is dropped. Afterwards the tables are the same but for the identifier of the person stored, as long as
the next one is free on both sides or taken on both.
-/
theorem post_agrees_with_message (b : Backend) (ids : Nat → Uuid) (span : Span) (request : Request)
    (posts : request.method = "POST") (path : Resource.ofPath? request.target.path = some .persons)
    (json : (Header.firstText? "content-type" request.headers).any MediaType.isJson = true)
    (small : request.body.length ≤ bodyLimit) (delivers : b.delivers = true)
    (alike : { b with ids }.refuses = b.refuses)
    : let other : Backend := { b with ids }
      Agrees b request.body (b.run (respond span request)).1 (other.run (Queue.handle request.body)).1
          (((Queue.handle request.body).trace Backend.perform other).filterMap Queue.report?)
        ∧ b.table.GrownAlike (b.run (respond span request)).2.table
          (other.run (Queue.handle request.body)).2.table := by
  intro other
  obtain ⟨answers, grown⟩ := respond_post ids span posts path json small alike
  have handled := Queue.handled other request.body
  have verdicts : verdict other request.body = verdict b request.body := rfl
  have settled : (other.run (Queue.handle request.body)).1 = (verdict b request.body).outcome other :=
    handled.settled
  have arrives : other.delivers = true := delivers
  rw [settled, handled.reports, verdicts]
  exact ⟨answers.agrees arrives alike request.body, grown⟩

/-- A person who gets one identifier by the request, and another one by the message. -/
theorem post_agrees_with_message_ada
    : let request : Request :=
        { method := "POST", target := ⟨Resource.personsPath, none⟩
          headers := [.ofText "content-type" "application/json"]
          body := Text.Utf8.ofString "\x7b\"name\":\"Ada\",\"surname\":\"Byron\"\x7d" }
      let b : Backend := .answering .nil
      let ids : Nat → Uuid := fun _ => ⟨List.replicate 32 1, rfl⟩
      Resource.ofPath? request.target.path = some .persons
        ∧ (Header.firstText? "content-type" request.headers).any MediaType.isJson = true
        ∧ request.body.length ≤ bodyLimit ∧ b.delivers = true ∧ Backend.refuses { b with ids } = b.refuses
        ∧ (b.run (respond Service.defaultCacheSpan request)).1.status = 201
        ∧ (∃ p, (Backend.run { b with ids } (Queue.handle request.body)).1 = .saved p)
        ∧ b.table.GrownAlike (b.run (respond Service.defaultCacheSpan request)).2.table
          (Backend.run { b with ids } (Queue.handle request.body)).2.table := by
  intro request b ids
  have path : Resource.ofPath? request.target.path = some .persons := by decide +kernel
  have json : (Header.firstText? "content-type" request.headers).any MediaType.isJson = true := by
    decide +kernel
  have small : request.body.length ≤ bodyLimit := by decide +kernel
  have delivers : b.delivers = true := by decide +kernel
  have alike : Backend.refuses { b with ids } = b.refuses := by decide +kernel
  have status : (b.run (respond Service.defaultCacheSpan request)).1.status = 201 := by decide +kernel
  obtain ⟨agrees, grown⟩ := post_agrees_with_message b ids Service.defaultCacheSpan request rfl path json small
    delivers alike
  exact ⟨path, json, small, delivers, alike, status, agrees.succeeds.mp status, grown⟩

end Web
end PersonRegistry
