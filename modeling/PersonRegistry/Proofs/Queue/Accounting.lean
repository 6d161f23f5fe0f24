import Mathlib.Data.List.Basic
import PersonRegistry.Proofs.Queue.Messages

/-! What a run of the pipeline adds up to, for any queue that is closed in the end: the outcomes of its
messages, the persons stored, and the reports sent.
-/

namespace PersonRegistry

open Service (Answered Backend Outage Program)
open Text (Octets)
open Time (Span)

-----------------------------------------------------------------------------------------
-- Identifiers that are free
-----------------------------------------------------------------------------------------

namespace Service.Backend

/-- The next identifiers are distinct, and belong to no row. -/
def FreshFor (b : Backend) (count : Nat) : Prop :=
  (b.table.rows.map (·.personId)
    ++ (List.range count).map fun k => (b.ids (b.issued + k)).text).Nodup

instance (b : Backend) (count : Nat) : Decidable (b.FreshFor count) :=
  inferInstanceAs (Decidable (List.Nodup _))

variable {b later : Backend} {count more : Nat}

theorem FreshFor.fewer (fresh : b.FreshFor more) (fewer : count ≤ more) : b.FreshFor count :=
  fresh.sublist ((((List.range_sublist.mpr fewer).map _)).append_left _)

/-- Identifiers that persons got are no longer free, and the others stay free. -/
theorem FreshFor.after {persons : List Person} (fresh : b.FreshFor (persons.length + count))
    (gains : b.Gains persons later) (ids : later.ids = b.ids)
    : later.FreshFor count := by
  obtain ⟨gained, rows, -, own, -⟩ := gains.rows
  rw [FreshFor, List.range_add, List.map_append, List.map_map, ← List.append_assoc] at fresh
  rw [FreshFor, rows, List.map_append, own, ids, gains.issued]
  simpa only [Function.comp_def, Nat.add_assoc] using fresh

/-- A new person is refused just if the store is down, as long as the next identifier is free. -/
theorem FreshFor.refuses (fresh : b.FreshFor (count + 1)) : b.refuses = b.isDown .storeCreate := by
  have free : b.table.rows.any (·.personId = (b.ids b.issued).text) = false := by
    refine List.any_eq_false.mpr fun row member taken => ?_
    have apart := (List.nodup_append.mp fresh).2.2 _ (List.mem_map_of_mem member) (b.ids b.issued).text
      (List.mem_map.mpr ⟨0, by simp, rfl⟩)
    exact apart (of_decide_eq_true taken)
  rw [Backend.refuses, free, Bool.or_false]

end Service.Backend

namespace Queue

-----------------------------------------------------------------------------------------
-- Any queue
-----------------------------------------------------------------------------------------

/-- What a poll of some queue comes to: a message, or none in time. Meanwhile time passes, and other parts may
be down from then on.
-/
structure Poll where
  message? : Option Octets
  outages : List Outage := []
  waited : Span := 0

/-- A run under way: the polls to come until the queue is closed, the surroundings, and the calls made and the
outcomes so far.
-/
structure Session where
  polls : List Poll
  backend : Backend
  calls : List Answered := []
  outcomes : List Outcome := []

/-- The surroundings once a poll is over. -/
def Poll.met (poll : Poll) (b : Backend) : Backend :=
  { b with outages := poll.outages, time := b.time + poll.waited }

namespace Session

def poll (s : Session) : Option (Except ConsumeError Octets) × Session :=
  match s.polls with
  | [] => (some (.error .closed), s)
  | next :: later =>
      (some (next.message?.elim (.error (.timeout next.waited)) .ok),
        { s with polls := later, backend := next.met s.backend })

theorem poll_cons (next : Poll) (later : List Poll) (b : Backend) (calls : List Answered)
    (outcomes : List Outcome)
    : poll ⟨next :: later, b, calls, outcomes⟩
      = (some (next.message?.elim (.error (.timeout next.waited)) .ok),
        ⟨later, next.met b, calls, outcomes⟩) :=
  rfl

/-- Processes a message as the pipeline does, and notes what is done. -/
def process (message : Octets) (s : Session) : Outcome × Session :=
  let (outcome, backend) := s.backend.run (handle message)
  (outcome,
    { s with
      backend
      calls := s.calls ++ (handle message).trace Backend.perform s.backend
      outcomes := s.outcomes ++ [outcome] })

end Session

-----------------------------------------------------------------------------------------
-- What is expected of each message
-----------------------------------------------------------------------------------------

/-- An outcome but for the identifier of the person stored. -/
def Outcome.withoutId : Outcome → Outcome
  | .saved p => .saved { p with id := none }
  | outcome => outcome

namespace Poll

/-- The outcome of a message that is handled alone. -/
def alone? (start : Backend) (poll : Poll) : Option Outcome :=
  poll.message?.map fun message => (((poll.met start).run (handle message)).1).withoutId

/-- The report about a message that is rejected, and whether it arrives. -/
def report? (start : Backend) (poll : Poll) : Option (Octets × Bool) :=
  poll.message?.bind fun message => (verdict start message).report? (poll.met start) message

/-- The outcome of a message by its verdict and by what is down. -/
def expected? (start : Backend) (poll : Poll) : Option Outcome :=
  poll.message?.map fun message =>
    match verdict start message with
    | .rejected _ => if (poll.met start).delivers then .reported else .dropped
    | .unknown => .dropped
    | .valid p =>
        if (poll.met start).isDown .storeCreate then .dropped else .saved { p with id := none }

end Poll

-----------------------------------------------------------------------------------------
-- Tallies
-----------------------------------------------------------------------------------------

/-- A tally counts what was recorded, by induction on the outcomes. -/
theorem foldl_record (outcomes : List Outcome) (tally : Tally)
    : outcomes.foldl Tally.record tally
      = { saved := tally.saved + (outcomes.flatMap Outcome.persons).length
          reported := tally.reported + outcomes.count .reported
          dropped := tally.dropped + outcomes.count .dropped } := by
  induction outcomes generalizing tally with
  | nil => rfl
  | cons outcome rest ih =>
      rw [List.foldl_cons, ih, List.flatMap_cons, List.length_append, List.count_cons, List.count_cons]
      cases outcome <;> simp [Tally.record] <;> omega

/-- Each outcome counts once unless it is idle. -/
theorem length_eq_counts {outcomes : List Outcome} (settled : .idle ∉ outcomes)
    : (outcomes.flatMap Outcome.persons).length + outcomes.count .reported
        + outcomes.count .dropped
      = outcomes.length := by
  induction outcomes with
  | nil => rfl
  | cons outcome rest ih =>
      obtain ⟨own, settled⟩ := List.ne_and_not_mem_of_not_mem_cons settled
      have counted := ih settled
      rw [List.flatMap_cons, List.length_append, List.count_cons, List.count_cons, List.length_cons]
      cases outcome with
      | idle => exact absurd rfl own
      | reported | dropped | saved p => simp [-List.length_flatMap]; omega

-----------------------------------------------------------------------------------------
-- One message after another
-----------------------------------------------------------------------------------------

/-- What the outcomes of some polls and the calls made for them add up to. -/
structure Accounted (b : Backend) (polls : List Poll) (outcomes : List Outcome)
    (calls : List Answered) (after : Backend)
    : Prop where
  messages : outcomes.length = (polls.filterMap (·.message?)).length
  settled : .idle ∉ outcomes
  gains : b.Gains (outcomes.flatMap Outcome.persons) after
  reports : calls.filterMap report? = polls.filterMap (·.report? b)
  delivered : outcomes.count .reported = (calls.filterMap report?).countP (·.2)
  services : b.SameServices after
  expected : b.FreshFor outcomes.length →
    outcomes.map Outcome.withoutId = polls.filterMap (·.expected? b)

section Polls

variable {b now after : Backend} {next : Poll} {polls : List Poll} {outcomes : List Outcome}
  {calls : List Answered}

theorem Poll.met_sameServices (poll : Poll) (b : Backend) : b.SameServices (poll.met b) :=
  ⟨rfl, rfl, rfl, rfl⟩

theorem Poll.met_sameStore (poll : Poll) (b : Backend) : b.SameStore (poll.met b) := ⟨rfl, rfl⟩

/-- A poll meets the same conditions whenever the services are the same. -/
theorem Poll.met_sameConditions (poll : Poll) (same : b.SameServices now)
    : (poll.met b).SameConditions (poll.met now) :=
  ⟨⟨same.replies, same.deadline, same.ids, same.reports⟩, rfl⟩

theorem Poll.report?_congr (same : b.SameServices now) (poll : Poll)
    : poll.report? now = poll.report? b := by
  have delivers := (poll.met_sameConditions same).delivers
  rw [report?, report?]
  refine Option.bind_congr fun message _ => ?_
  rw [verdict_congr same]
  cases verdict b message with
  | rejected rejection => rw [Verdict.report?, Verdict.report?, delivers]
  | unknown | valid p => rfl

theorem Poll.expected?_congr (same : b.SameServices now) (poll : Poll)
    : poll.expected? now = poll.expected? b := by
  have delivers := (poll.met_sameConditions same).delivers
  rw [expected?, expected?]
  refine Option.map_congr fun message _ => ?_
  rw [verdict_congr same, delivers]
  rfl

theorem Accounted.nil (b : Backend) : Accounted b [] [] [] b :=
  ⟨rfl, List.not_mem_nil, Backend.SameStore.gains ⟨rfl, rfl⟩, rfl, rfl, ⟨rfl, rfl, rfl, rfl⟩, fun _ => rfl⟩

/-- A poll that brings no message leaves everything as it is. -/
theorem Accounted.idle (none_ : next.message? = none)
    (rest : Accounted (next.met b) polls outcomes calls after)
    : Accounted b (next :: polls) outcomes calls after where
  messages := by rw [List.filterMap_cons_none none_, rest.messages]
  settled := rest.settled
  gains := (next.met_sameStore b).gains.trans rfl rest.gains
  reports := by
    have own : next.report? b = none := by rw [Poll.report?, none_]; rfl
    rw [List.filterMap_cons_none own, rest.reports]
    exact List.filterMap_congr fun poll _ => poll.report?_congr (next.met_sameServices b)
  delivered := rest.delivered
  services := (next.met_sameServices b).trans rest.services
  expected fresh := by
    have own : next.expected? b = none := by rw [Poll.expected?, none_]; rfl
    rw [List.filterMap_cons_none own, rest.expected fresh]
    exact List.filterMap_congr fun poll _ => poll.expected?_congr (next.met_sameServices b)

/-- A message counts as reported just if a report about it arrives. -/
theorem Verdict.count_reported (v : Verdict) (b : Backend) (message : Octets)
    : [v.outcome b].count .reported = (v.report? b message).toList.countP (·.2) := by
  cases v with
  | rejected rejection =>
      rw [outcome, report?]
      cases b.delivers <;> rfl
  | unknown => rfl
  | valid p =>
      rw [outcome]
      cases b.refuses <;> rfl

theorem Verdict.outcome_ne_idle (v : Verdict) (b : Backend) : v.outcome b ≠ .idle := by
  cases v with
  | rejected rejection =>
      rw [outcome]
      cases b.delivers <;> rintro ⟨⟩
  | unknown => rintro ⟨⟩
  | valid p =>
      rw [outcome]
      cases b.refuses <;> rintro ⟨⟩

/-- The outcome is as expected as long as the next identifier is free. -/
theorem Verdict.withoutId_outcome {count : Nat} {message : Octets} (some_ : next.message? = some message)
    (fresh : (next.met b).FreshFor (count + 1))
    : next.expected? b = some ((verdict b message).outcome (next.met b)).withoutId := by
  rw [Poll.expected?, some_, Option.map_some]
  refine congrArg some ?_
  cases verdict b message with
  | rejected rejection =>
      rw [outcome]
      cases (next.met b).delivers <;> rfl
  | unknown => rfl
  | valid p =>
      rw [outcome, fresh.refuses]
      cases (next.met b).isDown .storeCreate <;> rfl

/-- A message is handled, and then all the others. -/
theorem Accounted.message {message : Octets} {outcome : Outcome} {made : List Answered}
    (some_ : next.message? = some message) (handled : Handled (next.met b) message outcome made now)
    (rest : Accounted now polls outcomes calls after)
    : Accounted b (next :: polls) (outcome :: outcomes) (made ++ calls) after := by
  have services : b.SameServices now :=
    (next.met_sameServices b).trans handled.conditions.toSameServices
  have settled : outcome = (verdict b message).outcome (next.met b) := by
    rw [handled.settled, verdict_congr (next.met_sameServices b)]
  have reports : made.filterMap report? = ((verdict b message).report? (next.met b) message).toList := by
    rw [handled.reports, verdict_congr (next.met_sameServices b)]
  have own : next.report? b = (verdict b message).report? (next.met b) message := by
    rw [Poll.report?, some_]
    rfl
  have later : polls.filterMap (·.report? now) = polls.filterMap (·.report? b) :=
    List.filterMap_congr fun poll _ => poll.report?_congr services
  have laterExpected : polls.filterMap (·.expected? now) = polls.filterMap (·.expected? b) :=
    List.filterMap_congr fun poll _ => poll.expected?_congr services
  have gains := (next.met_sameStore b).gains.trans rfl handled.gains
  refine ⟨?_, ?_, ?_, ?_, ?_, services.trans rest.services, fun fresh => ?_⟩
  · rw [List.filterMap_cons_some some_, List.length_cons, List.length_cons, rest.messages]
  · rw [settled]
    exact List.not_mem_cons_of_ne_of_not_mem (Verdict.outcome_ne_idle _ _).symm rest.settled
  · rw [List.flatMap_cons]
    exact gains.trans services.ids rest.gains
  · rw [List.filterMap_append, reports, rest.reports, later, List.filterMap_cons, own]
    cases (verdict b message).report? (next.met b) message <;> rfl
  · rw [← List.singleton_append, List.count_append, List.filterMap_append, List.countP_append,
      rest.delivered, reports, settled, Verdict.count_reported]
  · have fewer : outcome.persons.length + outcomes.length ≤ (outcome :: outcomes).length := by
      cases outcome <;> simp [Nat.add_comm]
    have freshThen : now.FreshFor outcomes.length := (fresh.fewer fewer).after gains services.ids
    have freshThere : (next.met b).FreshFor (outcomes.length + 1) := fresh
    rw [List.map_cons, rest.expected freshThen, laterExpected, settled,
      List.filterMap_cons_some (Verdict.withoutId_outcome some_ freshThere)]

/-- A queue is polled until it is closed, by induction on the polls. -/
theorem pollAll_session (polls : List Poll) (b : Backend) (calls : List Answered)
    (outcomes : List Outcome) (tally : Tally) {rounds : Nat} (enough : polls.length < rounds)
    : ∃ more made after,
        pollAll Session.process Session.poll rounds tally ⟨polls, b, calls, outcomes⟩
          = (.ok (more.foldl Tally.record tally), ⟨[], after, calls ++ made, outcomes ++ more⟩)
        ∧ Accounted b polls more made after := by
  induction polls generalizing b calls outcomes tally rounds with
  | nil =>
      obtain _ | rounds := rounds
      · exact absurd enough (Nat.not_lt_zero _)
      refine ⟨[], [], b, ?_, .nil b⟩
      rw [List.append_nil, List.append_nil]
      rfl
  | cons next later ih =>
      obtain _ | rounds := rounds
      · exact absurd enough (Nat.not_lt_zero _)
      have enough := Nat.lt_of_succ_lt_succ enough
      cases brought : next.message? with
      | none =>
          obtain ⟨more, made, after, ended, rest⟩ := ih (next.met b) calls outcomes tally enough
          refine ⟨more, made, after, ?_, rest.idle brought⟩
          rw [← ended, pollAll, Session.poll_cons, brought]
          rfl
      | some message =>
          have handled := handled (next.met b) message
          obtain ⟨more, made, after, ended, rest⟩ := ih ((next.met b).run (handle message)).2
            (calls ++ (handle message).trace Backend.perform (next.met b))
            (outcomes ++ [((next.met b).run (handle message)).1])
            (tally.record ((next.met b).run (handle message)).1) enough
          refine ⟨_ :: more, _ ++ made, after, ?_, rest.message brought handled⟩
          rw [List.append_assoc, List.append_assoc] at ended
          rw [pollAll, Session.poll_cons, brought]
          exact ended

theorem Poll.length_message?_le {poll : Poll} (member : poll ∈ polls)
    : poll.message?.toList.length ≤ (polls.filterMap (·.message?)).length := by
  cases brought : poll.message? with
  | none => exact Nat.zero_le _
  | some message => exact List.length_pos_of_mem (List.mem_filterMap.mpr ⟨poll, member, brought⟩)

/-- A message that is handled alone has the outcome that is expected of it. -/
theorem Poll.alone?_eq {count : Nat} {poll : Poll} (fresh : b.FreshFor count)
    (messages : poll.message?.toList.length ≤ count)
    : poll.alone? b = poll.expected? b := by
  cases brought : poll.message? with
  | none => rw [alone?, expected?, brought, Option.map_none, Option.map_none]
  | some message =>
      have fresh : (poll.met b).FreshFor (0 + 1) := fresh.fewer (by simpa [brought] using messages)
      have settled := (handled (poll.met b) message).settled
      rw [verdict_congr (poll.met_sameServices b)] at settled
      rw [Verdict.withoutId_outcome brought fresh, alone?, brought, Option.map_some, ← settled]
      rfl

end Polls

-----------------------------------------------------------------------------------------
-- Whole runs
-----------------------------------------------------------------------------------------

/-- Whatever a queue brings before it is closed, and whatever is down meanwhile, the run ends with a tally of
the outcomes, one for each message. The table gains a row for each person saved, in the order of the messages.
A report is sent about each message that is rejected, and about no other, and those that arrive are counted.
As long as the identifiers are free, the outcome of a message is that of handling it alone, which its verdict
and what is down decide.
-/
theorem pollAll_accounts (start : Backend) (polls : List Poll) {rounds : Nat}
    (enough : polls.length < rounds)
    : let messages := polls.filterMap (·.message?)
      ∃ tally s,
        pollAll Session.process Session.poll rounds {} { polls, backend := start } = (.ok tally, s)
          ∧ tally = s.outcomes.foldl Tally.record {} ∧ s.outcomes.length = messages.length
          ∧ tally.saved + tally.reported + tally.dropped = messages.length
          ∧ (∃ gained, s.backend.table.rows = start.table.rows ++ gained ∧ gained.length = tally.saved
            ∧ gained.map (·.person) = (s.outcomes.flatMap Outcome.persons).map .ok
            ∧ ∀ row ∈ gained, row.isDeleted = false)
          ∧ s.calls.filterMap report? = polls.filterMap (·.report? start)
          ∧ tally.reported = (polls.filterMap (·.report? start)).countP (·.2)
          ∧ (start.FreshFor messages.length →
            s.outcomes.map Outcome.withoutId = polls.filterMap (·.alone? start)
              ∧ polls.filterMap (·.alone? start) = polls.filterMap (·.expected? start)) := by
  intro messages
  obtain ⟨outcomes, made, after, ended, accounted⟩ :=
    pollAll_session polls start [] [] {} enough
  rw [List.nil_append, List.nil_append] at ended
  have counted := foldl_record outcomes {}
  obtain ⟨gained, rows, read, own, live⟩ := accounted.gains.rows
  refine ⟨_, _, ended, rfl, accounted.messages, ?_, ⟨gained, rows, ?_, read, live⟩, accounted.reports,
    ?_, fun fresh => ?_⟩
  · rw [counted, ← accounted.messages, ← length_eq_counts accounted.settled]
    simp only [Nat.zero_add]
  · have size := congrArg List.length read
    rw [List.length_map, List.length_map] at size
    rw [counted, size, Nat.zero_add]
  · rw [counted, ← accounted.reports, ← accounted.delivered]
    exact Nat.zero_add _
  · have same : polls.filterMap (·.alone? start) = polls.filterMap (·.expected? start) :=
      List.filterMap_congr fun poll member => Poll.alone?_eq fresh (Poll.length_message?_le member)
    refine ⟨?_, same⟩
    rw [same]
    exact accounted.expected (accounted.messages ▸ fresh)

/-- Five messages and a poll in between that brings none: one is no JSON and its report does not arrive, one is
saved, one has a name that is no name, one meets a store that is down, and one is saved again.
-/
theorem pollAll_accounts_five
    : let start : Backend :=
        { Backend.answering .nil with ids := fun k => ⟨List.replicate 31 0 ++ [Fin.ofNat 16 k], rfl⟩ }
      let text (s : String) : Octets := Text.Utf8.encode s.toList
      let ada := text "\x7b\"name\":\"Ada\",\"surname\":\"Byron\"\x7d"
      let polls : List Poll :=
        [{ message? := some (text "Ada"), outages := [.reports] },
          { message? := some ada, outages := [.events] },
          { message? := none, waited := 100 },
          { message? := some (text "\x7b\"name\":\"4da\",\"surname\":\"Byron\"\x7d") },
          { message? := some ada, outages := [.storeCreate] },
          { message? := some ada }]
      start.FreshFor 5
        ∧ (pollAll Session.process Session.poll 7 {} { polls, backend := start }).1
          = .ok { saved := 2, reported := 1, dropped := 2 }
        ∧ ∃ tally s,
          pollAll Session.process Session.poll 7 {} { polls, backend := start } = (.ok tally, s)
            ∧ tally.saved + tally.reported + tally.dropped = 5
            ∧ s.calls.filterMap report? = polls.filterMap (·.report? start)
            ∧ s.outcomes.map Outcome.withoutId = polls.filterMap (·.alone? start) := by
  intro start text ada polls
  have fresh : start.FreshFor 5 := by decide +kernel
  have enough : polls.length < 7 := by decide
  obtain ⟨tally, s, ended, -, -, total, -, reports, -, alone⟩ := pollAll_accounts start polls enough
  exact ⟨fresh, by decide +kernel, tally, s, ended, total, reports, (alone fresh).1⟩

end Queue
end PersonRegistry
