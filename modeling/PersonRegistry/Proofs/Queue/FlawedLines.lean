import PersonRegistry.Proofs.Queue.Accounting
import PersonRegistry.Proofs.Queue.Stopping

/-! Runs of the pipeline that nobody orders to stop. A message that is rejected is answered and left behind, but
a line that is no text ends the run.
-/

namespace PersonRegistry

open Service (Backend Call Program)
open Service.Backend (cacheCall_cases storeCall_cases)
open Text (Octets)

namespace Queue

-----------------------------------------------------------------------------------------
-- The queue for reports
-----------------------------------------------------------------------------------------

/-- The queue once reports were sent, of which some arrive. -/
def LineSink.reported (sink : LineSink) (sent : List (Octets × Bool)) : LineSink :=
  sent.foldl (fun sink one => if one.2 then sink.produce one.1 else sink) sink

theorem LineSink.reported_append (sink : LineSink) (sent later : List (Octets × Bool))
    : sink.reported (sent ++ later) = (sink.reported sent).reported later :=
  List.foldl_append

/-- The only call that writes to the queue for reports is one that sends a report which arrives. -/
theorem reports_perform (b : Backend) (c : Call)
    : (b.perform c).2.reports
      = b.reports.map (·.reported (report? ⟨c, (b.perform c).1⟩).toList) := by
  have kept : b.reports = b.reports.map (·.reported []) := by cases b.reports <;> rfl
  cases c with
  | report message =>
      rw [Backend.perform, Backend.report]
      cases sink : b.reports with
      | none => exact sink
      | some sink =>
          cases down : b.isDown .reports with
          | true => exact sink
          | false => rfl
  | lookUp name => exact kept
  | create p =>
      refine storeCall_cases (motive := fun r => r.2.reports = b.reports.map (·.reported [])) kept ?_
      rw [Backend.create]
      split <;> exact kept
  | get _ | list _ | update _ | delete _ =>
      exact storeCall_cases (motive := fun r => r.2.reports = b.reports.map (·.reported [])) kept kept
  | cacheGet _ | cacheSet _ _ _ | cacheDelete _ =>
      exact cacheCall_cases (motive := fun r => r.2.reports = b.reports.map (·.reported [])) kept kept
  | publish message =>
      rw [Backend.perform, Backend.publish]
      split <;> exact kept

/-- A run leaves the reports it sent, by induction on the program. -/
theorem reports_run {α : Type} (program : Program α) (b : Backend)
    : (program.run Backend.perform b).2.reports
      = b.reports.map (·.reported ((program.trace Backend.perform b).filterMap report?)) := by
  induction program generalizing b with
  | done a => cases sent : b.reports <;> exact sent
  | ask c next ih =>
      rw [Program.run_ask, ih, reports_perform b c, Option.map_map, Program.trace]
      refine congrArg (b.reports.map ·) (funext fun sink => ?_)
      rw [Function.comp_apply, ← LineSink.reported_append, List.filterMap_cons]
      cases report? ⟨c, (b.perform c).1⟩ <;> rfl

-----------------------------------------------------------------------------------------
-- Messages that are processed under the same conditions
-----------------------------------------------------------------------------------------

section

variable {b : Backend} {poll : Poll}

theorem Poll.report?_of_outages (same : poll.outages = b.outages)
    : poll.report? b = poll.message?.bind fun message => (verdict b message).report? b message := by
  have delivers : (poll.met b).delivers = b.delivers := by
    rw [Backend.delivers, Backend.delivers, Backend.isDown, Backend.isDown, met, same]
  rw [report?]
  refine Option.bind_congr fun message _ => ?_
  cases verdict b message with
  | rejected rejection => rw [Verdict.report?, Verdict.report?, delivers]
  | unknown | valid p => rfl

/-- What is expected of a message does not depend on when it comes. -/
theorem Poll.expected?_of_outages {count : Nat} (fresh : b.FreshFor count)
    (messages : poll.message?.toList.length ≤ count) (same : poll.outages = b.outages)
    : poll.expected? b = poll.message?.map fun message => (b.run (handle message)).1.withoutId := by
  let atOnce : Poll := { poll with waited := 0 }
  have now : atOnce.met b = b := by rw [met, same]; rfl
  have alone : atOnce.alone? b = atOnce.expected? b := Poll.alone?_eq fresh messages
  have expected : poll.expected? b = atOnce.expected? b := rfl
  rw [expected, ← alone, alone?, now]

end

namespace Pipeline

/-- Messages that are processed one after another add up, by induction on them. -/
theorem Works.accounted {p after : Pipeline} {taken : List Taken} {outcomes : List Outcome}
    (works : Works (fun _ b => b) p taken outcomes after)
    : ∃ polls calls,
        polls.filterMap (·.message?) = taken.map Taken.message
          ∧ (∀ poll ∈ polls, poll.outages = p.backend.outages)
          ∧ Accounted p.backend polls outcomes calls after.backend
          ∧ after.backend.reports = p.backend.reports.map (·.reported (calls.filterMap report?)) := by
  induction works with
  | nil p =>
      refine ⟨[], [], rfl, List.forall_mem_nil _, .nil p.backend, ?_⟩
      cases p.backend.reports <;> rfl
  | @cons p after taken later outcomes waits rest ih =>
      obtain ⟨polls, calls, messages, outages, accounted, reports⟩ := ih
      let next : Poll :=
        { message? := some taken.message, outages := p.backend.outages
          waited := taken.time - p.backend.time }
      have met : next.met p.backend = (p.met taken.left taken.time).backend := by
        rw [Poll.met, Nat.add_sub_cancel' waits]
        rfl
      have handled : Handled (p.met taken.left taken.time).backend taken.message
          (processAmid (fun _ b => b) taken.message (p.met taken.left taken.time)).1
          ((handle taken.message).trace Backend.perform (p.met taken.left taken.time).backend)
          (processAmid (fun _ b => b) taken.message (p.met taken.left taken.time)).2.backend := handled _ _
      have own : (processAmid (fun _ b => b) taken.message (p.met taken.left taken.time)).2.backend.reports
          = p.backend.reports.map (·.reported (((handle taken.message).trace Backend.perform
            (p.met taken.left taken.time).backend).filterMap report?)) := reports_run _ _
      have same := handled.conditions.outages
      rw [← met] at handled own
      refine ⟨next :: polls, _, ?_, List.forall_mem_cons.mpr ⟨rfl, fun poll member => ?_⟩,
        .message rfl handled accounted, ?_⟩
      · exact congrArg (List.cons taken.message) messages
      · exact (outages poll member).trans same
      · rw [reports, own, Option.map_map, List.filterMap_append]
        exact congrArg (Option.map · _) (funext fun sink => (LineSink.reported_append sink _ _).symm)

/-- A run that nobody orders to stop takes the messages up to the first line that is no text. -/
theorem Course.read {p after : Pipeline} {result : Except ConsumeError Tally} {taken : List Taken}
    {outcomes : List Outcome} {later : List Octets}
    (course : Course (fun _ b => b) none True p {} result after taken outcomes later)
    : (Queue.messages p.source.remaining).takeWhile isText = taken.map Taken.message
      ∧ (Queue.messages p.source.remaining).dropWhile isText = later
      ∧ (later = [] → result = .ok (outcomes.foldl Tally.record {}) ∧ after.source.remaining = [])
      ∧ ∀ line behind, later = line :: behind →
        (∃ flaw, result = .error (.invalid flaw)) ∧ Queue.messages after.source.remaining = behind := by
  have texts : ∀ message ∈ taken.map Taken.message, isText message = true :=
    List.forall_mem_map.mpr course.texts
  rw [course.messages, List.takeWhile_append_of_pos texts, List.dropWhile_append_of_pos texts]
  have ending := course.ending
  cases ending with
  | stopped ordered =>
      obtain ⟨order, ⟨⟩, -⟩ := ordered
  | closed none_ drained =>
      subst none_
      exact ⟨List.append_nil _, rfl, fun _ => ⟨rfl, drained⟩, fun _ _ some_ => nomatch some_⟩
  | @invalid line flaw next flawed =>
      subst next
      refine ⟨?_, ?_, fun none_ => ?_, fun _ _ same => ⟨⟨flaw, rfl⟩, (List.cons.inj same).2⟩⟩
      · rw [List.takeWhile_cons_of_neg (ne_true_of_eq_false flawed), List.append_nil]
      · exact List.dropWhile_cons_of_neg (ne_true_of_eq_false flawed)
      · cases none_
  | spent endless => exact absurd trivial endless

/-- A run takes messages until the queue is closed, or it comes to a line that is no text. Each message before
that has one outcome, the one it has alone, whatever became of those before it: it is saved, or a report is
sent about it, or it is dropped. The messages behind that line are still in the queue.
-/
theorem run_ends_at_flawed_line (p : Pipeline) (closes : p.source.closes.isSome = true)
    (waits : 0 < p.pollSpan ∨ p.source.IsCompleteBy p.backend.time)
    : let all := messages p.source.remaining
      let read := all.takeWhile isText
      let unread := all.dropWhile isText
      let result := (p.run none).1
      let after := (p.run none).2
      ∃ outcomes : List Outcome, outcomes.length = read.length
        ∧ .idle ∉ outcomes
        ∧ (p.backend.FreshFor read.length →
            outcomes.map Outcome.withoutId
              = read.map fun message => (p.backend.run (handle message)).1.withoutId)
        ∧ p.backend.Gains (outcomes.flatMap Outcome.persons) after.backend
        ∧ after.backend.reports
          = p.backend.reports.map (·.reported
            (read.filterMap fun message => (verdict p.backend message).report? p.backend message))
        ∧ (unread = [] → result = .ok (outcomes.foldl Tally.record {}) ∧ after.source.remaining = [])
        ∧ ∀ line later, unread = line :: later →
            (∃ flaw, result = .error (.invalid flaw)) ∧ messages after.source.remaining = later := by
  intro all read unread result after
  obtain ⟨taken, outcomes, later, course⟩ :
      ∃ taken outcomes later, Course (fun _ b => b) none True p {} result after taken outcomes later :=
    course_pollAll (fun _ _ => Nat.le_refl _) _ p {} fun _ => suffices_run waits (.inr closes)
  obtain ⟨read_, unread_, closed, invalid⟩ := course.read
  obtain ⟨done, works, ended⟩ := course.works
  obtain ⟨polls, calls, brought, outages, accounted, reports⟩ := works.accounted
  have read_ : read = polls.filterMap (·.message?) := read_.trans brought.symm
  have gains : p.backend.Gains (outcomes.flatMap Outcome.persons) after.backend := by
    rw [ended]
    exact ⟨accounted.gains.issued, accounted.gains.rows⟩
  have sent : calls.filterMap report?
      = read.filterMap fun message => (verdict p.backend message).report? p.backend message := by
    rw [accounted.reports, read_, List.filterMap_filterMap]
    exact List.filterMap_congr fun poll member => poll.report?_of_outages (outages poll member)
  refine ⟨outcomes, read_ ▸ accounted.messages, accounted.settled, fun fresh => ?_, gains, ?_, ?_, ?_⟩
  · rw [accounted.expected (accounted.messages ▸ read_ ▸ fresh), read_, List.map_filterMap]
    refine List.filterMap_congr fun poll member => ?_
    exact Poll.expected?_of_outages fresh (read_ ▸ Poll.length_message?_le member) (outages poll member)
  · rw [ended, ← sent]
    exact reports
  · exact fun none_ => closed (unread_.symm.trans none_)
  · exact fun line behind some_ => invalid line behind (unread_.symm.trans some_)

/-- Of four messages the second one is no JSON and the third one no text. -/
theorem run_ends_at_flawed_line_third
    : let ada := Text.Utf8.ofString "\x7b\"name\":\"Ada\",\"surname\":\"Byron\"\x7d"
      let p : Pipeline :=
        { source :=
            { upcoming :=
                [⟨5, ada ++ newline :: [0x41] ++ newline :: [0xff] ++ newline :: ada ++ [newline]⟩]
              closes := some 50 }
          backend :=
            { Backend.answering .nil with ids := fun k => ⟨List.replicate 31 0 ++ [Fin.ofNat 16 k], rfl⟩ } }
      p.source.closes.isSome = true ∧ 0 < p.pollSpan ∧ p.backend.FreshFor 2
        ∧ (messages p.source.remaining).takeWhile isText = [ada, [0x41]]
        ∧ (messages p.source.remaining).dropWhile isText = [[0xff], ada]
        ∧ (∃ flaw, (p.run none).1 = .error (.invalid flaw))
        ∧ messages (p.run none).2.source.remaining = [ada]
        ∧ ∃ outcomes : List Outcome,
          outcomes.map Outcome.withoutId
              = [ada, [0x41]].map (fun message => (p.backend.run (handle message)).1.withoutId)
            ∧ p.backend.Gains (outcomes.flatMap Outcome.persons) (p.run none).2.backend := by
  intro ada p
  have closes : p.source.closes.isSome = true := rfl
  have waits : 0 < p.pollSpan := by decide
  have fresh : p.backend.FreshFor 2 := by decide +kernel
  have read : (messages p.source.remaining).takeWhile isText = [ada, [0x41]] := by decide +kernel
  have unread : (messages p.source.remaining).dropWhile isText = [[0xff], ada] := by decide +kernel
  obtain ⟨outcomes, -, -, alone, gains, -, -, fails⟩ := run_ends_at_flawed_line p closes (.inl waits)
  obtain ⟨flawed, left⟩ := fails _ _ unread
  rw [read] at alone
  exact ⟨closes, waits, fresh, read, unread, flawed, left, outcomes, alone fresh, gains⟩

/-- A line that is no text is not answered with a report, as it would be as a message. It ends the run, and the
person behind it is not saved.
-/
theorem run_fails_at_flawed_line
    : let ada := Text.Utf8.ofString "\x7b\"name\":\"Ada\",\"surname\":\"Byron\"\x7d"
      let p : Pipeline :=
        { source := { upcoming := [⟨0, [0xff] ++ newline :: ada ++ [newline]⟩], closes := some 0 }
          backend := .answering .nil }
      messages p.source.remaining = [[0xff], ada]
        ∧ (p.backend.run (handle [0xff])).1 = .reported
        ∧ (¬∃ tally, (p.run none).1 = .ok tally)
        ∧ (p.run none).2.backend.reports = some {}
        ∧ (p.run none).2.backend.table.rows = [] := by
  intro ada p
  have invalid : (p.run none).1 = .error (.invalid ⟨0, some 1⟩) := by decide +kernel
  refine ⟨by decide +kernel, by decide +kernel, fun ⟨tally, succeeds⟩ => ?_, by decide +kernel,
    by decide +kernel⟩
  rw [invalid] at succeeds
  cases succeeds

end Pipeline
end Queue
end PersonRegistry
