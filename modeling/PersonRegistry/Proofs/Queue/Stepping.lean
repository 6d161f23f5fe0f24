import PersonRegistry.Proofs.Queue.Accounting
import PersonRegistry.Proofs.Queue.Stopping

/-! A run of the pipeline that nobody orders to stop does what its steps do, taken one after another up to the
first that fails.
-/

namespace PersonRegistry.Queue

open Service (Backend)
open Text (Octets)

-----------------------------------------------------------------------------------------
-- Steps one after another
-----------------------------------------------------------------------------------------

/-- Steps are taken as long as they have outcomes. The one that fails is the last. -/
inductive StepsUntil {σ : Type} (step : σ → Except ConsumeError Outcome × σ) :
    σ → List Outcome → ConsumeError → σ → Prop
  | fails {s after : σ} {error : ConsumeError} (last : step s = (.error error, after))
    : StepsUntil step s [] error after
  | goesOn {s next after : σ} {outcome : Outcome} {outcomes : List Outcome} {error : ConsumeError}
    (first : step s = (.ok outcome, next)) (rest : StepsUntil step next outcomes error after)
    : StepsUntil step s (outcome :: outcomes) error after

/-- What a run comes to that an error has ended. One that the queue is closed is none. -/
def ConsumeError.ending (tally : Tally) : ConsumeError → Except ConsumeError Tally
  | .closed => .ok tally
  | error => .error error

/-- How many outcomes there are of each kind but idle ones. -/
def Tally.of (outcomes : List Outcome) : Tally where
  saved := (outcomes.flatMap Outcome.persons).length
  reported := outcomes.count .reported
  dropped := outcomes.count .dropped

theorem foldl_record_eq_of (outcomes : List Outcome)
    : outcomes.foldl Tally.record {} = Tally.of outcomes := by
  have counted := foldl_record outcomes {}
  simp only [Nat.zero_add] at counted
  exact counted

section

variable {σ : Type}

/-- A way of polling that no order to stop cuts short. -/
def uncut (poll : σ → Except ConsumeError Octets × σ) (s : σ) : Option (Except ConsumeError Octets) × σ :=
  (some (poll s).1, (poll s).2)

variable {process : Octets → σ → Outcome × σ} {poll : σ → Except ConsumeError Octets × σ}

/-- Whatever is polled and however messages are processed, a run ends as the steps do. By induction on the
steps: each of them is one round, and its outcome is recorded.
-/
theorem StepsUntil.pollAll_eq {s after : σ} {outcomes : List Outcome} {error : ConsumeError}
    (steps : StepsUntil (pollOnce process poll) s outcomes error after) (tally : Tally) {rounds : Nat}
    (enough : outcomes.length < rounds)
    : pollAll process (uncut poll) rounds tally s
      = (error.ending (outcomes.foldl Tally.record tally), after) := by
  induction steps generalizing tally rounds with
  | @fails s after error last =>
      obtain ⟨rounds, rfl⟩ := Nat.exists_eq_succ_of_ne_zero (Nat.ne_zero_of_lt enough)
      rw [pollOnce] at last
      rw [pollAll, uncut]
      generalize poll s = made at last ⊢
      rcases made with ⟨(span | _ | flaw) | message, polled⟩
      · cases last
      · cases last
        rfl
      · cases last
        rfl
      · cases last
  | @goesOn s next after outcome outcomes error first rest ih =>
      obtain ⟨rounds, rfl⟩ := Nat.exists_eq_succ_of_ne_zero (Nat.ne_zero_of_lt enough)
      have fewer : outcomes.length < rounds := Nat.lt_of_succ_lt_succ enough
      rw [pollOnce] at first
      rw [pollAll, uncut]
      generalize poll s = made at first ⊢
      rcases made with ⟨(span | _ | flaw) | message, polled⟩
      · cases first
        exact ih tally fewer
      · cases first
      · cases first
      · cases first
        exact ih (tally.record _) fewer

end

-----------------------------------------------------------------------------------------
-- Any queue
-----------------------------------------------------------------------------------------

/-- A queue of any kind and the surroundings in which its messages are processed: what the polls to come
bring, and the error that every poll brings from then on.
-/
structure Feed where
  polls : List Poll
  error : ConsumeError
  backend : Backend

namespace Feed

def poll (feed : Feed) : Except ConsumeError Octets × Feed :=
  match feed.polls with
  | [] => (.error feed.error, feed)
  | next :: later =>
      (next.message?.elim (.error (.timeout next.waited)) .ok,
        { feed with polls := later, backend := next.met feed.backend })

def process (message : Octets) (feed : Feed) : Outcome × Feed :=
  let (outcome, backend) := feed.backend.run (handle message)
  (outcome, { feed with backend })

def step : Feed → Except ConsumeError Outcome × Feed := pollOnce process poll

/-- Each poll is a step, and the error ends them, unless it is taken for a poll that brings nothing. By
induction on the polls.
-/
theorem stepsUntil (polls : List Poll) {error : ConsumeError} (final : ∀ span, error ≠ .timeout span)
    (b : Backend)
    : ∃ outcomes after, StepsUntil step ⟨polls, error, b⟩ outcomes error ⟨[], error, after⟩
        ∧ outcomes.length = polls.length := by
  induction polls generalizing b with
  | nil =>
      refine ⟨[], b, .fails ?_, rfl⟩
      cases error with
      | timeout span => exact absurd rfl (final span)
      | closed => rfl
      | invalid flaw => rfl
  | cons next later ih =>
      rcases next with ⟨_ | message, outages, waited⟩
      · obtain ⟨outcomes, after, rest, length⟩ := ih (Poll.met ⟨none, outages, waited⟩ b)
        exact ⟨.idle :: outcomes, after, .goesOn rfl rest, congrArg Nat.succ length⟩
      · let met := Poll.met ⟨some message, outages, waited⟩ b
        obtain ⟨outcomes, after, rest, length⟩ := ih (met.run (handle message)).2
        exact ⟨(met.run (handle message)).1 :: outcomes, after, .goesOn rfl rest, congrArg Nat.succ length⟩

end Feed

-----------------------------------------------------------------------------------------
-- Line sources
-----------------------------------------------------------------------------------------

namespace Pipeline

theorem pollUntil_none (p : Pipeline) : pollUntil none p = uncut poll p := by
  rw [pollUntil, isStopped, Option.any_none, if_neg Bool.false_ne_true, Option.map_none, LineSource.consumeUntil_none]
  rfl

/-- As long as the rounds suffice the steps come to an end, by induction on the rounds. -/
theorem stepsUntil {horizon rounds : Nat} {p : Pipeline} (suffices_ : Suffices none horizon rounds p)
    : ∃ outcomes error after, StepsUntil step p outcomes error after ∧ outcomes.length < rounds := by
  induction rounds generalizing p with
  | zero => exact absurd suffices_.enough (Nat.not_lt_zero _)
  | succ rounds ih =>
      have polled := polled_pollUntil none p
      rw [pollUntil_none, uncut] at polled
      have stepped : step p = pollOnce (fun message p => p.process message) (fun _ => poll p) p := rfl
      generalize poll p = made at polled stepped
      obtain ⟨answer, met⟩ := made
      cases polled with
      | invalid next flawed => exact ⟨[], _, _, .fails stepped, Nat.succ_pos _⟩
      | closed none_ drained => exact ⟨[], _, _, .fails stepped, Nat.succ_pos _⟩
      | @timeout source time same waits waited early leaves =>
          have waiting := suffices_.waiting waits waited early
          have later : Suffices none horizon rounds (p.met source time) :=
            suffices_.later rfl leaves (.inr ⟨waiting.1, Nat.lt_trans waiting.1 waiting.2⟩)
          obtain ⟨outcomes, error, after, rest, few⟩ := ih later
          exact ⟨.idle :: outcomes, error, after, .goesOn stepped rest, Nat.succ_lt_succ few⟩
      | @message message source time next text fewer early leaves =>
          have forward : time ≤ (processAmid (fun _ b => b) message (p.met source time)).2.backend.time :=
            time_processAmid (fun _ _ => Nat.le_refl _) message (p.met source time)
          have later : Suffices none horizon rounds ((p.met source time).process message).2 :=
            suffices_.later rfl (leaves.trans (.refl source forward)) (.inl fewer)
          obtain ⟨outcomes, error, after, rest, few⟩ := ih later
          exact ⟨_ :: outcomes, error, after, .goesOn stepped rest, Nat.succ_lt_succ few⟩

end Pipeline

/-- Whatever a queue brings before it fails or is closed, and whatever is down meanwhile, a run that nobody
orders to stop leaves the surroundings as the steps do that are taken until one of them fails. If that one
fails because the queue is closed, the run succeeds with the tally of their outcomes, where idle steps count
for nothing, and otherwise it fails with the same error. The same holds of a pipeline over lines, once the
queue is closed.
-/
theorem run_agrees_with_steps
    : (∀ (start : Backend) (polls : List Poll) (error : ConsumeError),
        (∀ span, error ≠ .timeout span) →
          ∃ outcomes after, StepsUntil Feed.step ⟨polls, error, start⟩ outcomes error ⟨[], error, after⟩
            ∧ outcomes.length = polls.length
            ∧ ∀ rounds, polls.length < rounds →
              pollAll Feed.process (uncut Feed.poll) rounds {} ⟨polls, error, start⟩
                = (error.ending (.of outcomes), ⟨[], error, after⟩))
      ∧ ∀ p : Pipeline, p.source.closes.isSome = true →
          (0 < p.pollSpan ∨ p.source.IsCompleteBy p.backend.time) →
            ∃ outcomes error after, StepsUntil Pipeline.step p outcomes error after
              ∧ p.run none = (error.ending (.of outcomes), after) := by
  constructor
  · intro start polls error final
    obtain ⟨outcomes, after, steps, length⟩ := Feed.stepsUntil polls final start
    refine ⟨outcomes, after, steps, length, fun rounds enough => ?_⟩
    rw [← foldl_record_eq_of]
    exact steps.pollAll_eq {} (length ▸ enough)
  · intro p closes waits
    obtain ⟨outcomes, error, after, steps, few⟩ :=
      Pipeline.stepsUntil (Pipeline.suffices_run waits (.inr closes))
    refine ⟨outcomes, error, after, steps, ?_⟩
    have polls : Pipeline.pollUntil none = uncut Pipeline.poll := funext Pipeline.pollUntil_none
    have steps : StepsUntil (pollOnce (fun message p => p.process message) Pipeline.poll) p outcomes error
        after := steps
    rw [← foldl_record_eq_of, Pipeline.run, Pipeline.runWith, polls]
    exact steps.pollAll_eq {} few

/-- A queue that breaks down behind a message that is saved, a poll that brings nothing and a message that is
no JSON; and a pipeline over one line.
-/
theorem run_agrees_with_steps_broken
    : let ada := Text.Utf8.ofString "\x7b\"name\":\"Ada\",\"surname\":\"Byron\"\x7d"
      let start : Backend := .answering .nil
      let polls : List Poll :=
        [{ message? := some ada }, { message? := none, waited := 100 }, { message? := some [0x41] }]
      let broken : ConsumeError := .invalid ⟨0, some 1⟩
      let p : Pipeline := { source := { waiting := ada ++ [newline], closes := some 0 }, backend := start }
      (∀ span, broken ≠ .timeout span) ∧ polls.length < 4
        ∧ (∃ outcomes after, StepsUntil Feed.step ⟨polls, broken, start⟩ outcomes broken ⟨[], broken, after⟩
          ∧ outcomes.length = 3
          ∧ pollAll Feed.process (uncut Feed.poll) 4 {} ⟨polls, broken, start⟩
            = (.error broken, ⟨[], broken, after⟩))
        ∧ p.source.closes.isSome = true ∧ 0 < p.pollSpan
        ∧ (p.run none).1 = .ok { saved := 1 }
        ∧ ∃ outcomes error after, StepsUntil Pipeline.step p outcomes error after
          ∧ p.run none = (error.ending (.of outcomes), after) := by
  intro ada start polls broken p
  have final : ∀ span, broken ≠ .timeout span := nofun
  have enough : polls.length < 4 := by decide
  have waits : 0 < p.pollSpan := by decide
  obtain ⟨scripts, pipelines⟩ := run_agrees_with_steps
  obtain ⟨outcomes, after, steps, length, run⟩ := scripts start polls broken final
  exact ⟨final, enough, ⟨outcomes, after, steps, length, run 4 enough⟩, rfl, waits, by decide +kernel,
    pipelines p rfl (.inl waits)⟩

end PersonRegistry.Queue
