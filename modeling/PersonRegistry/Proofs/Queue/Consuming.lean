import PersonRegistry.Proofs.Queue.Lines

/-! What calls for messages take from a line source. Calls may time out or be given up; as long as lines
are texts, the messages they give are those of the whole stream, in order and each of them once.
-/

namespace PersonRegistry.Queue

open Text (Octets)
open Time (Span)

namespace LineSource

-----------------------------------------------------------------------------------------
-- What is left of a source
-----------------------------------------------------------------------------------------

/-- All octets have arrived by a time, and the queue is closed. -/
def IsCompleteBy (source : LineSource) (time : Nat) : Prop :=
  (∀ arrival ∈ source.upcoming, arrival.time ≤ time) ∧ ∃ closed ∈ source.closes, closed ≤ time

/-- What is left of a source at a later time: nothing was added. -/
structure Leaves (source : LineSource) (now : Nat) (after : LineSource) (time : Nat) : Prop where
  upcoming : after.upcoming <:+ source.upcoming
  closes : after.closes = source.closes
  size : after.size ≤ source.size
  time : now ≤ time

variable {source between after : LineSource} {now then_ time limit : Nat}

theorem Leaves.refl (source : LineSource) (before : now ≤ time) : source.Leaves now source time :=
  ⟨List.suffix_refl _, rfl, Nat.le_refl _, before⟩

theorem Leaves.trans (first : source.Leaves now between then_) (second : between.Leaves then_ after time)
    : source.Leaves now after time where
  upcoming := second.upcoming.trans first.upcoming
  closes := second.closes.trans first.closes
  size := Nat.le_trans second.size first.size
  time := Nat.le_trans first.time second.time

theorem IsCompleteBy.mono (complete : source.IsCompleteBy now) (before : now ≤ time)
    : source.IsCompleteBy time := by
  obtain ⟨arrived, closed, closes, past⟩ := complete
  exact ⟨fun arrival member => Nat.le_trans (arrived arrival member) before, closed, closes,
    Nat.le_trans past before⟩

theorem IsCompleteBy.leaves (complete : source.IsCompleteBy limit) (leaves : source.Leaves now after time)
    : after.IsCompleteBy limit := by
  obtain ⟨arrived, closed, closes, past⟩ := complete
  exact ⟨fun arrival member => arrived arrival (leaves.upcoming.mem member), closed,
    leaves.closes ▸ closes, past⟩

-----------------------------------------------------------------------------------------
-- The next line
-----------------------------------------------------------------------------------------

/-- What waiting for a line comes to. -/
inductive Next (source : LineSource) (now limit : Nat) : NextLine × LineSource × Nat → Prop
  | line {raw : Octets} {after : LineSource} {time : Nat}
      (first : lines source.remaining = withoutEnd raw :: lines after.remaining)
      (ended : Ended raw (withoutEnd raw)) (taken : after.size < source.size)
      (timely : time ≤ max now limit) (leaves : source.Leaves now after time)
      : Next source now limit (.line raw, after, time)
  | timeout {after : LineSource} (same : after.remaining = source.remaining)
      (waits : ¬source.IsCompleteBy limit) (leaves : source.Leaves now after (max now limit))
      : Next source now limit (.timeout, after, limit)
  | closed {after : LineSource} {time : Nat} (none_ : source.remaining = [])
      (drained : after.remaining = []) (leaves : source.Leaves now after time)
      : Next source now limit (.closed, after, time)

/-- A line that waits with its end is given at once. -/
theorem Next.of_waiting {waiting raw rest : Octets} (found : splitLine? waiting = some (raw, rest))
    (now limit : Nat) (upcoming : List Arrival) (closes : Option Nat)
    : Next ⟨waiting, upcoming, closes⟩ now limit (.line raw, ⟨rest, upcoming, closes⟩, now) := by
  obtain ⟨body, free, rfl, rfl⟩ := splitLine?_eq_some found
  have taken : size ⟨rest, upcoming, closes⟩
      < size ⟨body ++ newline :: rest, upcoming, closes⟩ := by
    simp only [size, remaining, List.length_append, List.length_cons]
    omega
  refine .line ?_ ?_ taken (Nat.le_max_left _ _)
    ⟨List.suffix_refl _, rfl, Nat.le_of_lt taken, Nat.le_refl _⟩
  · simp only [remaining, List.append_assoc, List.cons_append, withoutEnd_concat, lines_append free]
  · exact withoutEnd_concat body ▸ ended_withoutEnd body

/-- What has arrived may as well have been waiting. -/
theorem Next.of_arrived {waiting : Octets} {arrival : Arrival} {later : List Arrival}
    {closes : Option Nat} {result : NextLine × LineSource × Nat} (due : arrival.time ≤ limit)
    (next : Next ⟨waiting ++ arrival.octets, later, closes⟩ (max now arrival.time) limit result)
    : Next ⟨waiting, arrival :: later, closes⟩ now limit result := by
  have same : remaining ⟨waiting ++ arrival.octets, later, closes⟩
      = remaining ⟨waiting, arrival :: later, closes⟩ := by
    simp [remaining]
  have sameSize := congrArg List.length same
  have arrives : Leaves ⟨waiting, arrival :: later, closes⟩ now
      ⟨waiting ++ arrival.octets, later, closes⟩ (max now arrival.time) :=
    ⟨List.suffix_cons _ _, rfl, Nat.le_of_eq sameSize, Nat.le_max_left _ _⟩
  cases next with
  | line first ended taken timely leaves =>
      refine .line (same ▸ first) ended (Nat.lt_of_lt_of_eq taken sameSize) ?_ (arrives.trans leaves)
      omega
  | timeout same_ waits leaves =>
      refine .timeout (same_.trans same) (fun complete => waits (complete.leaves arrives)) ?_
      have later := arrives.trans leaves
      rwa [Nat.max_assoc, Nat.max_eq_right due] at later
  | closed none_ drained leaves => exact .closed (same ▸ none_) drained (arrives.trans leaves)

/-- Without the end of a line, what waits is a line of its own once the queue is closed. -/
theorem next_closing {waiting : Octets} (none_ : splitLine? waiting = none) (now limit : Nat)
    (closes : Option Nat)
    : Next ⟨waiting, [], closes⟩ now limit (nextLineFrom limit closes now waiting []) := by
  have all : remaining ⟨waiting, [], closes⟩ = waiting := by simp [remaining]
  have kept : Leaves ⟨waiting, [], closes⟩ now ⟨waiting, [], closes⟩ (max now limit) :=
    .refl _ (Nat.le_max_left _ _)
  rw [nextLineFrom.eq_def]
  simp only [none_]
  cases closes with
  | none => exact .timeout rfl (fun ⟨_, _, closes, _⟩ => nomatch closes) kept
  | some closed =>
      simp only
      split
      next due =>
        have leaves : Leaves ⟨waiting, [], some closed⟩ now ⟨[], [], some closed⟩ (max now closed) :=
          ⟨List.suffix_refl _, rfl, by simp [size, remaining], Nat.le_max_left _ _⟩
        split
        next empty => exact .closed (all.trans empty) rfl leaves
        next full =>
          have free := splitLine?_eq_none none_
          have bare := withoutEnd_last free
          refine .line ?_ (bare.symm ▸ .last waiting) ?_ (by omega) leaves
          · rw [all, lines_single free full, bare]
            rfl
          · rw [size, size, all]
            exact List.length_pos_iff.mpr full
      next late =>
        refine .timeout rfl (fun ⟨_, time, closes, past⟩ => late ?_) kept
        exact Option.some.inj closes ▸ past

/-- The next line is the first one of all that remains, by induction on what has yet to arrive. -/
theorem next_nextLineFrom (now limit : Nat) (closes : Option Nat) (waiting : Octets)
    (upcoming : List Arrival)
    : Next ⟨waiting, upcoming, closes⟩ now limit (nextLineFrom limit closes now waiting upcoming) := by
  induction upcoming generalizing now waiting with
  | nil =>
      cases found : splitLine? waiting with
      | some line =>
          rw [nextLineFrom.eq_def]
          simp only [found]
          exact .of_waiting found now limit [] closes
      | none => exact next_closing found now limit closes
  | cons arrival later ih =>
      rw [nextLineFrom.eq_def]
      cases found : splitLine? waiting with
      | some line =>
          simp only [found]
          exact .of_waiting found now limit _ closes
      | none =>
          simp only [found]
          split
          next due => exact .of_arrived due (ih _ _)
          next late =>
            refine .timeout rfl (fun ⟨arrived, _⟩ => late ?_) (.refl _ (Nat.le_max_left _ _))
            exact arrived arrival List.mem_cons_self

theorem next_nextLine (source : LineSource) (now limit : Nat)
    : source.Next now limit (source.nextLine now limit) :=
  next_nextLineFrom now limit source.closes source.waiting source.upcoming

-----------------------------------------------------------------------------------------
-- The next message
-----------------------------------------------------------------------------------------

/-- What a call for a message comes to that is not given up before `last`. -/
inductive Consumed (source : LineSource) (now : Nat) (span : Span) (last : Option Nat) :
    Option (Except ConsumeError Octets) × LineSource × Nat → Prop
  | message {message : Octets} {after : LineSource} {time : Nat}
      (next : messages source.remaining = message :: messages after.remaining)
      (text : isText message = true) (taken : after.size < source.size)
      (timely : ∀ end_ ∈ last, time ≤ end_) (leaves : source.Leaves now after time)
      : Consumed source now span last (some (.ok message), after, time)
  | invalid {line : Octets} {flaw : Text.Utf8.Flaw} {after : LineSource} {time : Nat}
      (next : messages source.remaining = line :: messages after.remaining)
      (flawed : isText line = false) (leaves : source.Leaves now after time)
      : Consumed source now span last (some (.error (.invalid flaw)), after, time)
  | closed {after : LineSource} {time : Nat} (none_ : messages source.remaining = [])
      (drained : after.remaining = []) (leaves : source.Leaves now after time)
      : Consumed source now span last (some (.error .closed), after, time)
  | timeout {after : LineSource} {time : Nat}
      (same : messages after.remaining = messages source.remaining)
      (waits : ¬source.IsCompleteBy time) (waited : now + span ≤ time)
      (timely : ∀ end_ ∈ last, time ≤ end_) (leaves : source.Leaves now after time)
      : Consumed source now span last (some (.error (.timeout span)), after, time)
  | givenUp {after : LineSource} {time : Nat}
      (same : messages after.remaining = messages source.remaining)
      (waits : ¬source.IsCompleteBy time) (ends : last = some time)
      (leaves : source.Leaves now after time)
      : Consumed source now span last (none, after, time)

section

variable {span : Span} {last : Option Nat} {result : Option (Except ConsumeError Octets) × LineSource × Nat}

/-- A blank line is skipped, and the call goes on behind it. -/
theorem Consumed.skip (same : messages between.remaining = messages source.remaining)
    (leaves : source.Leaves now between then_) (rest : between.Consumed then_ span last result)
    : source.Consumed now span last result := by
  have since := leaves.time
  cases rest with
  | message next text taken timely later =>
      exact .message (same ▸ next) text (Nat.lt_of_lt_of_le taken leaves.size) timely
        (leaves.trans later)
  | invalid next flawed later => exact .invalid (same ▸ next) flawed (leaves.trans later)
  | closed none_ drained later => exact .closed (same ▸ none_) drained (leaves.trans later)
  | timeout sameThen waits waited timely later =>
      exact .timeout (sameThen.trans same) (fun complete => waits (complete.leaves leaves)) (by omega)
        timely (leaves.trans later)
  | givenUp sameThen waits ends later =>
      exact .givenUp (sameThen.trans same) (fun complete => waits (complete.leaves leaves)) ends
        (leaves.trans later)

theorem messages_of_lines {octets rest : Octets} {line : Octets} (first : lines octets = line :: lines rest)
    : messages octets = if isBlank line then messages rest else line :: messages rest := by
  rw [messages, first, List.filter_cons]
  cases isBlank line <;> rfl

/-- A call gives the first message of all that remains, unless it stops waiting before; by induction on
the lines it may come across.
-/
theorem consumed_consumeWith {rounds : Nat} (source : LineSource) (now : Nat)
    (enough : source.size < rounds) (alive : ∀ end_ ∈ last, now ≤ end_)
    : source.Consumed now span last (consumeWith span last rounds source now) := by
  induction rounds generalizing source now with
  | zero => exact absurd enough (Nat.not_lt_zero _)
  | succ rounds ih =>
      have next := next_nextLine source now (last.elim (now + span) (min (now + span)))
      have ahead : now ≤ last.elim (now + span) (min (now + span)) := by
        cases last with
        | none => exact Nat.le_add_right _ _
        | some end_ => exact Nat.le_min.mpr ⟨Nat.le_add_right _ _, alive end_ rfl⟩
      have within : ∀ end_ ∈ last, last.elim (now + span) (min (now + span)) ≤ end_ := by
        rintro end_ ⟨⟩
        exact Nat.min_le_right _ _
      have cut : last.elim (now + span) (min (now + span)) ≠ now + span →
          last = some (last.elim (now + span) (min (now + span))) := by
        intro other
        cases last with
        | none => exact absurd rfl other
        | some end_ =>
            simp only [Option.elim_some] at other ⊢
            exact congrArg some (by omega)
      rw [consumeWith]
      generalize last.elim (now + span) (min (now + span)) = limit at next ahead within cut ⊢
      generalize source.nextLine now limit = given at next
      cases next with
      | timeout same waits leaves =>
          rw [Nat.max_eq_right ahead] at leaves
          simp only
          split
          next whole =>
            exact .timeout (congrArg messages same) waits (Nat.le_of_eq whole.symm) within leaves
          next other => exact .givenUp (congrArg messages same) waits (cut other) leaves
      | closed none_ drained leaves =>
          exact .closed (by rw [none_]; rfl) drained leaves
      | @line raw between then_ first ended taken timely leaves =>
          have timely : ∀ end_ ∈ last, then_ ≤ end_ := fun end_ given =>
            Nat.le_trans timely ((Nat.max_eq_right ahead).symm ▸ within end_ given)
          have brings := brings_readLine? ended rfl
          have next := messages_of_lines first
          simp only
          generalize readLine? raw = read at brings
          cases brings with
          | blank blank =>
              rw [if_pos blank] at next
              exact .skip next.symm leaves (ih between then_ (by omega) timely)
          | message full text =>
              rw [full] at next
              exact .message next text taken timely leaves
          | invalid full flawed =>
              rw [full] at next
              exact .invalid next flawed leaves

theorem consumed_consumeUntil (source : LineSource) (alive : ∀ end_ ∈ last, now ≤ end_)
    : source.Consumed now span last (source.consumeUntil last now span) :=
  consumed_consumeWith source now (Nat.lt_succ_self _) alive

end

/-- A call that nobody gives up has an answer. -/
theorem consumeUntil_none (source : LineSource) (now : Nat) (span : Span)
    : source.consumeUntil none now span
      = (some (source.consume now span).1, (source.consume now span).2) := by
  have consumed : source.Consumed now span none (source.consumeUntil none now span) :=
    source.consumed_consumeUntil fun _ given => nomatch given
  rw [consume]
  generalize source.consumeUntil none now span = made at consumed
  cases consumed with
  | givenUp _ _ ends => cases ends
  | message | invalid | closed | timeout => rfl

-----------------------------------------------------------------------------------------
-- Calls one after another
-----------------------------------------------------------------------------------------

/-- A call for a message: how long after the call before it is made, how long it waits for each line, and
how long it takes until it is given up, if it ever is.
-/
structure Attempt where
  pause : Nat := 0
  span : Span
  patience : Option Nat := none

/-- Makes a call. One that is given up gives nothing. -/
def attempt (source : LineSource) (now : Nat) (call : Attempt) :
    Option (Except ConsumeError Octets) × LineSource × Nat :=
  let begun := now + call.pause
  match call.patience with
  | none =>
      let (result, source, time) := source.consume begun call.span
      (some result, source, time)
  | some patience => source.consumeUntil (some (begun + patience)) begun call.span

/-- Makes calls one after another. -/
def attempts : List Attempt → LineSource → (now : Nat) →
    List (Option (Except ConsumeError Octets)) × LineSource × Nat
  | [], source, now => ([], source, now)
  | call :: later, source, now =>
      let (answer, source, now) := source.attempt now call
      let (answers, source, now) := attempts later source now
      (answer :: answers, source, now)

/-- The message that a call has brought, if any. -/
def received? : Option (Except ConsumeError Octets) → Option Octets
  | some (.ok message) => some message
  | _ => none

theorem consumed_attempt (source : LineSource) (now : Nat) (call : Attempt)
    : source.Consumed (now + call.pause) call.span (call.patience.map (now + call.pause + ·))
        (source.attempt now call) := by
  rw [attempt]
  cases call.patience with
  | some patience =>
      exact source.consumed_consumeUntil fun end_ given =>
        Option.some.inj given ▸ Nat.le_add_right _ _
  | none =>
      have consumed : source.Consumed (now + call.pause) call.span none
          (source.consumeUntil none (now + call.pause) call.span) :=
        source.consumed_consumeUntil fun _ given => nomatch given
      rw [consumeUntil_none] at consumed
      exact consumed

/-- What calls have given of the messages of a source, and what they have left. -/
structure Received (source : LineSource) (now : Nat) (answers : List (Option (Except ConsumeError Octets)))
    (after : LineSource) (time : Nat)
    : Prop where
  messages : messages source.remaining = answers.filterMap received? ++ messages after.remaining
  sound : ∀ flaw, some (.error (.invalid flaw)) ∉ answers
  closed : some (.error .closed) ∈ answers → Queue.messages after.remaining = []
  leaves : source.Leaves now after time

/-- A call is made, and then all the others. -/
theorem Received.cons {answer : Option (Except ConsumeError Octets)}
    {answers : List (Option (Except ConsumeError Octets))}
    (first : Queue.messages source.remaining
      = (received? answer).toList ++ Queue.messages between.remaining)
    (sound : ∀ flaw, answer ≠ some (.error (.invalid flaw)))
    (closed : answer = some (.error .closed) → Queue.messages between.remaining = [])
    (leaves : source.Leaves now between then_) (rest : between.Received then_ answers after time)
    : source.Received now (answer :: answers) after time where
  messages := by
    rw [first, rest.messages, List.filterMap_cons]
    cases received? answer <;> rfl
  sound flaw := List.not_mem_cons_of_ne_of_not_mem (sound flaw).symm (rest.sound flaw)
  closed member := by
    rcases List.mem_cons.mp member with same | later
    · exact (List.append_eq_nil_iff.mp (rest.messages.symm.trans (closed same.symm))).2
    · exact rest.closed later
  leaves := leaves.trans rest.leaves

/-- Calls for texts give the messages in order, by induction on the calls. -/
theorem received_attempts (calls : List Attempt) (source : LineSource) (now : Nat)
    (texts : ∀ line ∈ messages source.remaining, isText line = true)
    : source.Received now (attempts calls source now).1 (attempts calls source now).2.1
        (attempts calls source now).2.2 := by
  induction calls generalizing source now with
  | nil => exact ⟨rfl, fun _ => List.not_mem_nil, (nomatch ·), .refl _ (Nat.le_refl _)⟩
  | cons call later ih =>
      have consumed := source.consumed_attempt now call
      have since : source.Leaves now source (now + call.pause) := .refl _ (Nat.le_add_right _ _)
      rw [attempts]
      generalize source.attempt now call = made at consumed
      cases consumed with
      | @message message after time next text taken timely leaves =>
          rw [next] at texts
          exact .cons next nofun nofun (since.trans leaves)
            (ih after time (List.forall_mem_of_forall_mem_cons texts))
      | invalid next flawed =>
          rw [next] at texts
          simp [flawed] at texts
      | @closed after time none_ drained leaves =>
          have empty : messages after.remaining = [] := by rw [drained]; rfl
          exact .cons (none_.trans empty.symm) nofun (fun _ => empty) (since.trans leaves)
            (ih after time (by simp [empty]))
      | @timeout after time same waits waited timely leaves =>
          exact .cons same.symm nofun nofun (since.trans leaves) (ih after time (same ▸ texts))
      | @givenUp after time same waits ends leaves =>
          exact .cons same.symm nofun nofun (since.trans leaves) (ih after time (same ▸ texts))

/-- Once everything has arrived, each call gives the message that is next, and at the end of the queue that
it is closed; by induction on the calls.
-/
theorem attempts_complete (calls : List Attempt) (source : LineSource) (now : Nat)
    (texts : ∀ line ∈ messages source.remaining, isText line = true)
    (complete : source.IsCompleteBy now)
    : (attempts calls source now).1
      = (List.range calls.length).map fun k =>
          some ((messages source.remaining)[k]?.elim (.error .closed) .ok) := by
  induction calls generalizing source now with
  | nil => rfl
  | cons call later ih =>
      have consumed := source.consumed_attempt now call
      have since : now ≤ now + call.pause := Nat.le_add_right _ _
      rw [attempts, List.length_cons, List.range_succ_eq_map, List.map_cons, List.map_map]
      generalize source.attempt now call = made at consumed
      cases consumed with
      | @message message after time next text taken timely leaves =>
          have ended : after.IsCompleteBy time :=
            (complete.mono (Nat.le_trans since leaves.time)).leaves leaves
          rw [next] at texts ⊢
          simp only [ih after time (List.forall_mem_of_forall_mem_cons texts) ended]
          rfl
      | invalid next flawed =>
          rw [next] at texts
          simp [flawed] at texts
      | @closed after time none_ drained leaves =>
          have ended : after.IsCompleteBy time :=
            (complete.mono (Nat.le_trans since leaves.time)).leaves leaves
          have none_Then : messages after.remaining = [] := by rw [drained]; rfl
          simp only [ih after time (by simp [none_Then]) ended, none_, none_Then]
          rfl
      | timeout same waits waited timely leaves =>
          exact absurd (complete.mono (Nat.le_trans since leaves.time)) waits
      | givenUp same waits ends leaves =>
          exact absurd (complete.mono (Nat.le_trans since leaves.time)) waits

/-- Whatever pieces a stream of texts arrives in, whenever they do, and whichever calls time out or are
given up, the messages received are those of the stream, in order and each of them once; what has not been
received is still to come. No call fails otherwise than by timing out, or at the end of the queue. Once
everything has arrived, the calls give the rest one by one, and from then on that the queue is closed.
-/
theorem attempts_receive (source : LineSource) (now : Nat)
    (texts : ∀ line ∈ lines source.remaining, isText line = true) (calls : List Attempt)
    : let answers := (attempts calls source now).1
      let after := (attempts calls source now).2.1
      let time := (attempts calls source now).2.2
      ∃ later, messages source.remaining = answers.filterMap received? ++ later
        ∧ (∀ error, some (.error error) ∈ answers →
            error = .closed ∧ later = [] ∨ ∃ span, error = .timeout span)
        ∧ ((∀ arrival ∈ source.upcoming, arrival.time ≤ time) →
            (∃ closed, source.closes = some closed ∧ closed ≤ time) →
            ∀ more, (attempts more after time).1
              = (List.range more.length).map fun k => some (later[k]?.elim (.error .closed) .ok)) := by
  intro answers after time
  have texts : ∀ line ∈ messages source.remaining, isText line = true := fun line member =>
    texts line (List.mem_of_mem_filter member)
  have received : source.Received now answers after time := received_attempts calls source now texts
  refine ⟨messages after.remaining, received.messages, fun error failed => ?_, ?_⟩
  · cases error with
    | closed => exact .inl ⟨rfl, received.closed failed⟩
    | timeout span => exact .inr ⟨span, rfl⟩
    | invalid flaw => exact absurd failed (received.sound flaw)
  · intro arrived closed more
    have complete : source.IsCompleteBy time := ⟨arrived, closed⟩
    refine attempts_complete more after time (fun line member => texts line ?_)
      (complete.leaves received.leaves)
    rw [received.messages]
    exact List.mem_append_right _ member

/-- Two lines that arrive cut up within a character and within the end of a line, with a blank one between
them. Of the calls, the first times out, the second is given up, the fourth skips the blank line and times
out, and the last is made after the end.
-/
theorem attempts_receive_cut_up
    : let source : LineSource :=
        { upcoming :=
            [⟨10, [0xc3]⟩, ⟨20, [0x84, carriageReturn]⟩, ⟨30, [newline, 0x20, newline]⟩, ⟨40, [0x62]⟩]
          closes := some 50 }
      let calls : List Attempt :=
        [{ span := 5 }, { span := 100, patience := some 12 }, { span := 100 }, { pause := 1, span := 5 },
          { span := 100 }, { span := 100 }]
      (∀ line ∈ lines source.remaining, isText line = true)
        ∧ (attempts calls source 0).1
          = [some (.error (.timeout 5)), none, some (.ok [0xc3, 0x84]), some (.error (.timeout 5)),
              some (.ok [0x62]), some (.error .closed)]
        ∧ ∃ later, messages source.remaining
          = (attempts calls source 0).1.filterMap received? ++ later := by
  intro source calls
  have texts : ∀ line ∈ lines source.remaining, isText line = true := by decide +kernel
  obtain ⟨later, messages, -⟩ := attempts_receive source 0 texts calls
  exact ⟨texts, by decide +kernel, later, messages⟩

end LineSource
end PersonRegistry.Queue
