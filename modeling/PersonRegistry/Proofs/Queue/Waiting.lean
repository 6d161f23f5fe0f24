import PersonRegistry.Proofs.Queue.Accounting
import PersonRegistry.Proofs.Queue.Consuming

/-! How long a call for a message waits. It waits for each line a span at most, but every blank line that it
skips starts the span anew, so that only the number of blank lines bounds the whole call.
-/

namespace PersonRegistry.Queue

open Text (Octets)
open Time (Span)

namespace LineSource

variable {source between after : LineSource} {now then_ time limit : Nat} {span : Span}

-----------------------------------------------------------------------------------------
-- Waiting for one line
-----------------------------------------------------------------------------------------

/-- What waiting for a line comes to is known by the limit, by induction on what has yet to arrive. -/
theorem time_nextLineFrom_le (limit : Nat) (closes : Option Nat) (now : Nat) (waiting : Octets)
    (upcoming : List Arrival)
    : (nextLineFrom limit closes now waiting upcoming).2.2 ≤ max now limit := by
  fun_induction nextLineFrom limit closes now waiting upcoming with
  | case1 => exact Nat.le_max_left _ _
  | case2 now waiting _ arrival later due ih =>
      rwa [Nat.max_assoc, Nat.max_eq_right due] at ih
  | case4 now waiting _ closed _ due =>
      exact Nat.max_le.mpr ⟨Nat.le_max_left _ _, Nat.le_trans due (Nat.le_max_right _ _)⟩
  -- the limit comes first
  | case3 | case5 | case6 => exact Nat.le_max_right _ _

/-- No line ends by a time, and the queue is not closed by then. -/
structure IsSilentBy (source : LineSource) (limit : Nat) : Prop where
  waiting : newline ∉ source.waiting
  upcoming : ∀ arrival ∈ source.upcoming, arrival.time ≤ limit → newline ∉ arrival.octets
  closes : ∀ closed ∈ source.closes, limit < closed

/-- Where no line ends, none is given. -/
theorem splitLine?_of_not_mem {octets : Octets} (free : newline ∉ octets) : splitLine? octets = none := by
  cases found : splitLine? octets with
  | none => rfl
  | some parts =>
      obtain ⟨body, -, -, rfl⟩ := splitLine?_eq_some found
      exact absurd (List.mem_append_right body List.mem_cons_self) free

/-- Waiting for a line in silence times out, by induction on what has yet to arrive. -/
theorem nextLineFrom_silent (limit : Nat) (closes : Option Nat) (now : Nat) (waiting : Octets)
    (upcoming : List Arrival) (silent : IsSilentBy ⟨waiting, upcoming, closes⟩ limit)
    : (nextLineFrom limit closes now waiting upcoming).1 = .timeout := by
  fun_induction nextLineFrom limit closes now waiting upcoming with
  | case1 now waiting upcoming line rest found =>
      rw [splitLine?_of_not_mem silent.waiting] at found
      cases found
  | case2 now waiting _ arrival later due ih =>
      obtain ⟨first, others⟩ := List.forall_mem_cons.mp silent.upcoming
      refine ih ⟨fun member => ?_, others, silent.closes⟩
      exact (List.mem_append.mp member).elim silent.waiting (first due)
  | case4 now waiting _ closed closes_ due =>
      exact absurd due (Nat.not_le.mpr (silent.closes closed closes_))
  | case3 | case5 | case6 => rfl

-----------------------------------------------------------------------------------------
-- Waiting for a message
-----------------------------------------------------------------------------------------

/-- What an answer takes of the lines that are left. -/
inductive Takes : Except ConsumeError Octets → (before after : List Octets) → Prop
  | message (line : Octets) (later : List Octets) : Takes (.ok line) (line :: later) later
  | invalid {line : Octets} {flaw : Text.Utf8.Flaw} (flawed : isText line = false)
      (later : List Octets) : Takes (.error (.invalid flaw)) (line :: later) later
  | closed : Takes (.error .closed) [] []
  | timeout (span : Span) (later : List Octets) : Takes (.error (.timeout span)) later later

/-- A call skips blank lines and waits from then on for the line that its answer is about. -/
structure Waited (source : LineSource) (now : Nat) (span : Span) (skipped : List Octets) (since : Nat)
    (answer : Except ConsumeError Octets) (after : LineSource) (time : Nat)
    : Prop where
  blank : ∀ line ∈ skipped, isBlank line = true
  takes : ∃ rest, lines source.remaining = skipped ++ rest ∧ Takes answer rest (lines after.remaining)
  begun : now ≤ since ∧ since ≤ now + skipped.length * span
  first : skipped = [] → since = now
  ended : since ≤ time ∧ time ≤ since + span
  timeout : ∀ other, answer = .error (.timeout other) → other = span ∧ time = since + span

/-- Nothing is skipped. -/
theorem Waited.of_first {answer : Except ConsumeError Octets}
    (takes : Takes answer (lines source.remaining) (lines after.remaining))
    (leaves : source.Leaves now after time) (timely : time ≤ now + span)
    (timeout : ∀ other, answer = .error (.timeout other) → other = span ∧ time = now + span)
    : source.Waited now span [] now answer after time :=
  ⟨List.forall_mem_nil _, ⟨_, rfl, takes⟩, ⟨Nat.le_refl _, Nat.le_add_right _ _⟩, fun _ => rfl,
    ⟨leaves.time, timely⟩, timeout⟩

/-- One more blank line, for which a span may pass. -/
theorem Waited.skip {answer : Except ConsumeError Octets} {line : Octets} {skipped : List Octets}
    {since : Nat} (blank : isBlank line = true)
    (first : lines source.remaining = line :: lines between.remaining)
    (ahead : now ≤ then_) (timely : then_ ≤ now + span)
    (rest : between.Waited then_ span skipped since answer after time)
    : source.Waited now span (line :: skipped) since answer after time := by
  obtain ⟨later, split_, takes⟩ := rest.takes
  have start := rest.begun
  refine ⟨List.forall_mem_cons.mpr ⟨blank, rest.blank⟩, ⟨later, by rw [first, split_]; rfl, takes⟩, ?_,
    (nomatch ·), rest.ended, rest.timeout⟩
  rw [List.length_cons, Nat.succ_mul]
  omega

/-- A call comes to an answer after some blank lines, by induction on the lines there can be. -/
theorem waited_consumeWith {rounds : Nat} (source : LineSource) (now : Nat)
    (enough : source.size < rounds)
    : ∃ answer skipped since, (consumeWith span none rounds source now).1 = some answer
        ∧ source.Waited now span skipped since answer (consumeWith span none rounds source now).2.1
          (consumeWith span none rounds source now).2.2 := by
  induction rounds generalizing source now with
  | zero => exact absurd enough (Nat.not_lt_zero _)
  | succ rounds ih =>
      have next := next_nextLine source now (now + span)
      have timely : (source.nextLine now (now + span)).2.2 ≤ now + span :=
        Nat.le_trans (time_nextLineFrom_le _ _ _ _ _)
          (Nat.max_le.mpr ⟨Nat.le_add_right _ _, Nat.le_refl _⟩)
      rw [consumeWith]
      simp only [Option.elim_none]
      generalize source.nextLine now (now + span) = given at next timely
      cases next with
      | timeout same waits leaves =>
          rw [Nat.max_eq_right (Nat.le_add_right _ _)] at leaves
          simp only [if_true]
          refine ⟨_, [], now, rfl, .of_first ?_ leaves timely fun other own => ?_⟩
          · rw [same]
            exact .timeout span _
          · exact ⟨(ConsumeError.timeout.inj (Except.error.inj own)).symm, rfl⟩
      | closed none_ drained leaves =>
          refine ⟨_, [], now, rfl, .of_first ?_ leaves timely fun other own => by cases own⟩
          rw [none_, drained]
          exact .closed
      | @line raw between then_ first ended taken _ leaves =>
          have brings := brings_readLine? ended rfl
          simp only
          generalize readLine? raw = read at brings
          cases brings with
          | blank blank =>
              obtain ⟨answer, skipped, since, given, rest⟩ := ih between then_ (by omega)
              exact ⟨answer, _ :: skipped, since, given, rest.skip blank first leaves.time timely⟩
          | message full text =>
              refine ⟨_, [], now, rfl, .of_first ?_ leaves timely fun other own => by cases own⟩
              rw [first]
              exact .message _ _
          | invalid full flawed =>
              refine ⟨_, [], now, rfl, .of_first ?_ leaves timely fun other own => by cases own⟩
              rw [first]
              exact .invalid flawed _

theorem waited_consume (source : LineSource) (now : Nat) (span : Span)
    : ∃ skipped since, source.Waited now span skipped since (source.consume now span).1
        (source.consume now span).2.1 (source.consume now span).2.2 := by
  obtain ⟨answer, skipped, since, given, waited⟩ :=
    source.waited_consumeWith now (Nat.lt_succ_self source.size)
  refine ⟨skipped, since, ?_⟩
  rw [consume, consumeUntil]
  simp only
  rw [given]
  exact waited

/-- In silence a call times out when its span is over, and takes nothing. -/
theorem consume_silent (silent : source.IsSilentBy (now + span))
    : ∃ after, source.consume now span = (.error (.timeout span), after, now + span)
        ∧ after.remaining = source.remaining := by
  have next := next_nextLine source now (now + span)
  have none_ : (source.nextLine now (now + span)).1 = .timeout := nextLineFrom_silent _ _ _ _ _ silent
  rw [consume, consumeUntil, consumeWith]
  simp only [Option.elim_none]
  generalize source.nextLine now (now + span) = given at next none_
  cases next with
  | timeout same waits leaves => exact ⟨_, by simp only [if_true, Option.getD_some], same⟩
  | line => cases none_
  | closed => cases none_

-----------------------------------------------------------------------------------------
-- Blank lines that arrive one by one
-----------------------------------------------------------------------------------------

/-- Blank lines that arrive one by one, each some time after the one before. -/
def blanks (wait : Nat) : (count now : Nat) → List Arrival
  | 0, _ => []
  | count + 1, now => ⟨now + wait, [newline]⟩ :: blanks wait count (now + wait)

theorem nextLine_blanks {wait : Nat} (timely : wait ≤ span) (count now : Nat)
    : nextLine ⟨[], blanks wait (count + 1) now, none⟩ now (now + span)
      = (.line [newline], ⟨[], blanks wait count (now + wait), none⟩, now + wait) := by
  have due : now + wait ≤ now + span := Nat.add_le_add_left timely now
  rw [nextLine, blanks, nextLineFrom, splitLine?]
  simp only [due, if_true]
  rw [nextLineFrom.eq_def, Nat.max_eq_right (Nat.le_add_right now wait)]
  rfl

/-- Blank lines that arrive in time keep a call waiting, by induction on their number. -/
theorem consumeWith_blanks {wait : Nat} (timely : wait ≤ span) {count rounds : Nat}
    (enough : count < rounds) (now : Nat)
    : consumeWith span none rounds ⟨[], blanks wait count now, none⟩ now
      = (some (.error (.timeout span)), {}, now + count * wait + span) := by
  induction count generalizing rounds now with
  | zero =>
      obtain ⟨rounds, rfl⟩ := Nat.exists_eq_add_one_of_ne_zero (Nat.ne_of_gt enough)
      rw [consumeWith, Nat.zero_mul, Nat.add_zero]
      have next : nextLine ⟨[], blanks wait 0 now, none⟩ now (now + span) = (.timeout, {}, now + span) :=
        rfl
      simp only [Option.elim_none, next, if_true]
  | succ count ih =>
      obtain ⟨rounds, rfl⟩ := Nat.exists_eq_add_one_of_ne_zero (Nat.ne_zero_of_lt enough)
      have blank : readLine? [newline] = none := by decide +kernel
      rw [consumeWith]
      simp only [Option.elim_none, nextLine_blanks timely, blank]
      rw [ih (Nat.lt_of_succ_lt_succ enough), Nat.succ_mul]
      congr 2
      omega

theorem length_blanks (wait count now : Nat)
    : ((blanks wait count now).flatMap (·.octets)).length = count := by
  induction count generalizing now with
  | zero => rfl
  | succ count ih => rw [blanks, List.flatMap_cons, List.length_append, ih, Nat.add_comm]; rfl

theorem consume_blanks {wait : Nat} (timely : wait ≤ span) (count now : Nat)
    : consume ⟨[], blanks wait count now, none⟩ now span
      = (.error (.timeout span), {}, now + count * wait + span) := by
  have enough : count < size ⟨[], blanks wait count now, none⟩ + 1 := by
    rw [size, remaining, List.nil_append, length_blanks]
    exact Nat.lt_succ_self count
  rw [consume, consumeUntil, consumeWith_blanks timely enough]
  rfl

end LineSource

-----------------------------------------------------------------------------------------
-- Polls of the pipeline
-----------------------------------------------------------------------------------------

namespace Pipeline

open LineSource

/-- No message is processed as if there had been none. -/
theorem process_ne_idle (pipeline : Pipeline) (message : Octets)
    : (pipeline.process message).1 ≠ .idle := by
  have handled := handled pipeline.backend message
  exact handled.settled.symm ▸ Verdict.outcome_ne_idle _ _

/-- A step is idle exactly if its call for a message timed out. -/
theorem step_idle_iff (pipeline : Pipeline)
    : pipeline.step.1 = .ok .idle
      ↔ ∃ span, (pipeline.source.consume pipeline.backend.time pipeline.pollSpan).1
          = .error (.timeout span) := by
  rw [step, pollOnce, poll]
  generalize pipeline.source.consume pipeline.backend.time pipeline.pollSpan = polled
  obtain ⟨answer, source, time⟩ := polled
  rcases answer with (span | _ | flaw) | message
  · exact iff_of_true rfl ⟨span, rfl⟩
  · exact iff_of_false nofun nofun
  · exact iff_of_false nofun nofun
  · refine iff_of_false (fun idle => ?_) nofun
    exact process_ne_idle _ message (Except.ok.inj idle)

/-- Wherever and whenever a call for a message is made, it skips some blank lines and then waits for the line
that its answer is about: for a span at most since it began, or since the last of the blank lines. So it takes
no longer than one span and one more for each blank line, and does take that long if blank lines keep
arriving. A step is idle exactly if its call times out, which it does after one span if no line ends
meanwhile.
-/
theorem step_waits (pipeline : Pipeline)
    : let now := pipeline.backend.time
      let span := pipeline.pollSpan
      let called := pipeline.source.consume now span
      (∃ skipped since, pipeline.source.Waited now span skipped since called.1 called.2.1 called.2.2
          ∧ called.2.2 ≤ now + (skipped.length + 1) * span)
        ∧ (∀ count wait, wait ≤ span →
            (consume ⟨[], blanks wait count now, none⟩ now span).2.2 = now + count * wait + span)
        ∧ (pipeline.step.1 = .ok .idle ↔ called.1 = .error (.timeout span))
        ∧ (pipeline.source.IsSilentBy (now + span) →
            pipeline.step.1 = .ok .idle ∧ called.2.2 = now + span
              ∧ called.2.1.remaining = pipeline.source.remaining) := by
  intro now span called
  obtain ⟨skipped, since, waited⟩ := pipeline.source.waited_consume now span
  have idle : pipeline.step.1 = .ok .idle ↔ called.1 = .error (.timeout span) := by
    refine pipeline.step_idle_iff.trans ⟨fun ⟨other, timedOut⟩ => ?_, fun timedOut => ⟨span, timedOut⟩⟩
    obtain ⟨rfl, -⟩ := waited.timeout other timedOut
    exact timedOut
  refine ⟨⟨skipped, since, waited, ?_⟩, fun count wait timely => ?_, idle, fun silent => ?_⟩
  · have begun : since ≤ now + skipped.length * span := waited.begun.2
    have ended : called.2.2 ≤ since + span := waited.ended.2
    rw [Nat.succ_mul]
    omega
  · rw [consume_blanks timely]
  · obtain ⟨after, silent, same⟩ := consume_silent silent
    have called_ : called = (.error (.timeout span), after, now + span) := silent
    exact ⟨idle.mpr (by rw [called_]), by rw [called_], by rw [called_, same]⟩

/-- A blank line arrives in time, and so the call goes on: to a message that comes too late, or to a time-out
that does. Where there is nothing but a blank line before the end of the queue, a step is not idle either.
-/
theorem step_waits_blank
    : let blank : Arrival := ⟨60, [newline]⟩
      let message : Octets := Text.Utf8.ofString "\x7b\x7d"
      let late : LineSource := { upcoming := [blank, ⟨120, message ++ [newline]⟩] }
      let ended : LineSource := { waiting := [newline], closes := some 0 }
      (late.consume 0 100).1 = .ok message ∧ (late.consume 0 100).2.2 = 120
        ∧ (Pipeline.mk late (.answering .nil) 100).step.1 = .ok .reported
        ∧ (consume { upcoming := [blank] } 0 100).2.2 = 160
        ∧ (Pipeline.mk ended (.answering .nil) 100).step.1 = .error .closed := by
  intro blank message late ended
  exact ⟨by decide +kernel, by decide +kernel, by decide +kernel, by decide +kernel, by decide +kernel⟩

end Pipeline
end PersonRegistry.Queue
