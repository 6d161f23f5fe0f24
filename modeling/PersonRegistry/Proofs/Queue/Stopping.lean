import PersonRegistry.Proofs.Queue.Consuming
import PersonRegistry.Proofs.Service.Traces
import PersonRegistry.Queue.Pipeline

/-! Runs of the pipeline over a line source, to the end of the queue or to the order to stop. Whenever that
order comes, it comes between two messages: each is processed completely, or is still in the queue.
-/

namespace PersonRegistry

open Service (Backend Call Program)
open Text (Octets)

-----------------------------------------------------------------------------------------
-- Time
-----------------------------------------------------------------------------------------

/-- No call turns back the time, by cases on it. -/
theorem Service.Backend.time_perform (b : Backend) (c : Call) : b.time ≤ (b.perform c).2.time := by
  have kept : b.time ≤ b.time := Nat.le_refl _
  cases c with
  | lookUp name => exact Nat.le_add_right _ _
  | create p =>
      refine storeCall_cases (motive := fun r => b.time ≤ r.2.time) kept ?_
      rw [create]
      split <;> exact kept
  | get _ | list _ | update _ | delete _ =>
      exact storeCall_cases (motive := fun r => b.time ≤ r.2.time) kept kept
  | cacheGet _ | cacheSet _ _ _ | cacheDelete _ =>
      exact cacheCall_cases (motive := fun r => b.time ≤ r.2.time) kept kept
  | publish message =>
      rw [perform, publish]
      split <;> exact kept
  | report message =>
      rw [perform, report]
      split
      next => exact kept
      next => split <;> exact kept

namespace Queue

open LineSource (Leaves attempts received?)

namespace Pipeline

/-- The pipeline once a poll is over, with what that left of the queue. -/
def met (p : Pipeline) (source : LineSource) (time : Nat) : Pipeline :=
  { p with source, backend := { p.backend with time } }

-----------------------------------------------------------------------------------------
-- One poll
-----------------------------------------------------------------------------------------

/-- What a poll comes to that may be cut short by the order to stop. -/
inductive Polled (stop : Option Nat) (p : Pipeline) :
    Option (Except ConsumeError Octets) × Pipeline → Prop
  | stopped {source : LineSource} {time : Nat} (ordered : ∃ order ∈ stop, order ≤ time)
      (same : messages source.remaining = messages p.source.remaining)
      : Polled stop p (none, p.met source time)
  | message {message : Octets} {source : LineSource} {time : Nat}
      (next : messages p.source.remaining = message :: messages source.remaining)
      (text : isText message = true) (taken : source.size < p.source.size)
      (early : ∀ order ∈ stop, time < order) (leaves : p.source.Leaves p.backend.time source time)
      : Polled stop p (some (.ok message), p.met source time)
  | invalid {line : Octets} {flaw : Text.Utf8.Flaw} {source : LineSource} {time : Nat}
      (next : messages p.source.remaining = line :: messages source.remaining)
      (flawed : isText line = false)
      : Polled stop p (some (.error (.invalid flaw)), p.met source time)
  | closed {source : LineSource} {time : Nat} (none_ : messages p.source.remaining = [])
      (drained : source.remaining = [])
      : Polled stop p (some (.error .closed), p.met source time)
  | timeout {source : LineSource} {time : Nat}
      (same : messages source.remaining = messages p.source.remaining)
      (waits : ¬p.source.IsCompleteBy time) (waited : p.backend.time + p.pollSpan ≤ time)
      (early : ∀ order ∈ stop, time < order) (leaves : p.source.Leaves p.backend.time source time)
      : Polled stop p (some (.error (.timeout p.pollSpan)), p.met source time)

theorem isStopped_iff {stop : Option Nat} {p : Pipeline}
    : p.isStopped stop = true ↔ ∃ order ∈ stop, order ≤ p.backend.time := by
  cases stop <;> simp [isStopped]

theorem polled_pollUntil (stop : Option Nat) (p : Pipeline) : Polled stop p (pollUntil stop p) := by
  rw [pollUntil]
  split
  next stopped =>
    exact @Polled.stopped stop p p.source p.backend.time (isStopped_iff.mp stopped) rfl
  next goesOn =>
    have ahead : ∀ order ∈ stop, p.backend.time < order := fun order given =>
      Nat.lt_of_not_le fun past => goesOn (isStopped_iff.mpr ⟨order, given, past⟩)
    have alive : ∀ last ∈ stop.map (· - 1), p.backend.time ≤ last := by
      intro last before
      obtain ⟨order, given, rfl⟩ := Option.map_eq_some_iff.mp before
      have := ahead order given
      omega
    have early {time : Nat} (timely : ∀ last ∈ stop.map (· - 1), time ≤ last)
        : ∀ order ∈ stop, time < order := by
      intro order given
      have := ahead order given
      have := timely (order - 1) (Option.map_eq_some_iff.mpr ⟨order, given, rfl⟩)
      omega
    have consumed : p.source.Consumed p.backend.time p.pollSpan (stop.map (· - 1))
        (p.source.consumeUntil (stop.map (· - 1)) p.backend.time p.pollSpan) :=
      p.source.consumed_consumeUntil alive
    generalize p.source.consumeUntil (stop.map (· - 1)) p.backend.time p.pollSpan = made at consumed
    cases consumed with
    | message next text taken timely leaves => exact .message next text taken (early timely) leaves
    | invalid next flawed leaves => exact .invalid next flawed
    | closed none_ drained leaves => exact .closed none_ drained
    | timeout same waits waited timely leaves =>
        exact .timeout same waits waited (early timely) leaves
    | givenUp same waits ends leaves =>
        obtain ⟨order, given, -⟩ := Option.map_eq_some_iff.mp ends
        exact .stopped ⟨order, given, by simp [Option.mem_def.mp given]⟩ same

-----------------------------------------------------------------------------------------
-- Messages processed one after another
-----------------------------------------------------------------------------------------

/-- Processes a message. By the time the next one is asked for, the surroundings have changed: parts fail or
work again, others use the store, time passes.
-/
def processAmid (change : LineSource → Backend → Backend) (message : Octets) (p : Pipeline) :
    Outcome × Pipeline :=
  let (outcome, p) := p.process message
  (outcome, { p with backend := change p.source p.backend })

/-- A run while the surroundings change after each message. -/
def runAmid (change : LineSource → Backend → Backend) (stop : Option Nat) (p : Pipeline) :
    Except ConsumeError Tally × Pipeline :=
  pollAll (processAmid change) (pollUntil stop) (p.source.size + p.horizon stop + 2) {} p

/-- A run is one whose surroundings nothing else changes. -/
theorem runAmid_unchanged (stop : Option Nat) (p : Pipeline)
    : p.runAmid (fun _ b => b) stop = p.run stop :=
  rfl

/-- A message that a poll has given, when it did, and what it left of the queue. -/
structure Taken where
  message : Octets
  time : Nat
  left : LineSource

/-- Messages are processed completely one after another, each of them taken once the one before it is done. -/
inductive Works (change : LineSource → Backend → Backend) :
    Pipeline → List Taken → List Outcome → Pipeline → Prop
  | nil (p : Pipeline) : Works change p [] [] p
  | cons {p after : Pipeline} {taken : Taken} {later : List Taken} {outcomes : List Outcome}
      (waits : p.backend.time ≤ taken.time)
      (rest : Works change (processAmid change taken.message (p.met taken.left taken.time)).2 later
        outcomes after)
      : Works change p (taken :: later)
          ((processAmid change taken.message (p.met taken.left taken.time)).1 :: outcomes) after

section

variable {change : LineSource → Backend → Backend} {stop : Option Nat} {p : Pipeline}

theorem source_processAmid (message : Octets) (p : Pipeline)
    : (processAmid change message p).2.source = p.source :=
  rfl

theorem pollSpan_processAmid (message : Octets) (p : Pipeline)
    : (processAmid change message p).2.pollSpan = p.pollSpan :=
  rfl

theorem time_processAmid (forward : ∀ source b, b.time ≤ (change source b).time) (message : Octets)
    (p : Pipeline)
    : p.backend.time ≤ (processAmid change message p).2.backend.time := by
  have run : p.backend.time ≤ ((handle message).run Backend.perform p.backend).2.time :=
    (handle message).run_induction (motive := fun b : Backend => p.backend.time ≤ b.time)
      (fun c b kept => Nat.le_trans kept (b.time_perform c)) (Nat.le_refl _)
  exact Nat.le_trans run (forward _ _)

/-- A poll that gives no message makes no difference to the messages processed later. -/
theorem Works.of_met {source : LineSource} {time : Nat} {taken : List Taken} {outcomes : List Outcome}
    {after : Pipeline} (works : Works change (p.met source time) taken outcomes after)
    (since : p.backend.time ≤ time)
    : ∃ done, Works change p taken outcomes done
        ∧ ∀ source time, done.met source time = after.met source time := by
  cases works with
  | nil => exact ⟨p, .nil p, fun _ _ => rfl⟩
  | cons waits rest => exact ⟨after, .cons (Nat.le_trans since waits) rest, fun _ _ => rfl⟩

-----------------------------------------------------------------------------------------
-- How long a run may take
-----------------------------------------------------------------------------------------

/-- The rounds suffice to come to the end of the queue, or to the order to stop: each takes an octet or lets
time pass, and nothing happens to the queue after the horizon.
-/
structure Suffices (stop : Option Nat) (horizon rounds : Nat) (p : Pipeline) : Prop where
  waits : 0 < p.pollSpan ∨ p.source.IsCompleteBy p.backend.time
  ends : stop.isSome ∨ p.source.closes.isSome
  arrivals : ∀ arrival ∈ p.source.upcoming, arrival.time ≤ horizon
  closing : ∀ closed ∈ p.source.closes, closed ≤ horizon
  order : ∀ order ∈ stop, order ≤ horizon
  enough : p.source.size + (horizon - p.backend.time) < rounds

variable {horizon rounds : Nat}

theorem Suffices.later {later : Pipeline} (suffices_ : Suffices stop horizon (rounds + 1) p)
    (span : later.pollSpan = p.pollSpan)
    (leaves : p.source.Leaves p.backend.time later.source later.backend.time)
    (fewer : later.source.size < p.source.size ∨ p.backend.time < later.backend.time
      ∧ p.backend.time < horizon)
    : Suffices stop horizon rounds later where
  waits := span ▸ suffices_.waits.imp_right fun complete =>
    (complete.mono leaves.time).leaves leaves
  ends := leaves.closes ▸ suffices_.ends
  arrivals arrival member := suffices_.arrivals arrival (leaves.upcoming.mem member)
  closing := leaves.closes ▸ suffices_.closing
  order := suffices_.order
  enough := by
    have enough := suffices_.enough
    have size := leaves.size
    have time := leaves.time
    omega

/-- Where a poll has timed out, something was still to happen. -/
theorem Suffices.waiting {time : Nat} (suffices_ : Suffices stop horizon rounds p)
    (waits : ¬p.source.IsCompleteBy time) (waited : p.backend.time + p.pollSpan ≤ time)
    (early : ∀ order ∈ stop, time < order)
    : p.backend.time < time ∧ time < horizon := by
  refine ⟨?_, Nat.lt_of_not_le fun past => ?_⟩
  · rcases suffices_.waits with some_ | complete
    · exact Nat.lt_of_lt_of_le (Nat.lt_add_of_pos_right some_) waited
    · exact absurd (complete.mono (by omega)) waits
  · cases stop with
    | some order => exact Nat.not_le.mpr (early order rfl) (Nat.le_trans (suffices_.order order rfl) past)
    | none =>
        obtain ⟨closed, closes⟩ := Option.isSome_iff_exists.mp
          (suffices_.ends.resolve_left Bool.false_ne_true)
        exact waits ⟨fun arrival member => Nat.le_trans (suffices_.arrivals arrival member) past,
          closed, closes, Nat.le_trans (suffices_.closing closed closes) past⟩

theorem le_foldl_max (times : List Nat) (start : Nat)
    : start ≤ times.foldl max start ∧ ∀ time ∈ times, time ≤ times.foldl max start := by
  induction times generalizing start with
  | nil => exact ⟨Nat.le_refl _, List.forall_mem_nil _⟩
  | cons time later ih =>
      obtain ⟨first, others⟩ := ih (max start time)
      rw [List.foldl_cons]
      exact ⟨Nat.le_trans (Nat.le_max_left _ _) first,
        List.forall_mem_cons.mpr ⟨Nat.le_trans (Nat.le_max_right _ _) first, others⟩⟩

/-- The rounds of a run suffice, unless the queue is never closed and no order to stop ever comes, or polls
take no time.
-/
theorem suffices_run (waits : 0 < p.pollSpan ∨ p.source.IsCompleteBy p.backend.time)
    (ends : stop.isSome ∨ p.source.closes.isSome)
    : Suffices stop (p.horizon stop) (p.source.size + p.horizon stop + 2) p := by
  obtain ⟨-, all⟩ := le_foldl_max
    (p.source.upcoming.map (·.time) ++ p.source.closes.toList ++ stop.toList) 0
  simp only [List.forall_mem_append, List.forall_mem_map, Option.mem_toList] at all
  exact ⟨waits, ends, all.1.1, all.1.2, all.2, by omega⟩

-----------------------------------------------------------------------------------------
-- Whole runs
-----------------------------------------------------------------------------------------

/-- How a run ends with some messages still to come. It may run out of rounds only where they need not
suffice.
-/
inductive Ending (stop : Option Nat) (finite : Prop) (tally : Tally) (later : List Octets) (after : Pipeline) :
    Except ConsumeError Tally → Prop
  | stopped (ordered : ∃ order ∈ stop, order ≤ after.backend.time)
      (left : messages after.source.remaining = later)
      : Ending stop finite tally later after (.ok tally)
  | closed (none_ : later = []) (drained : after.source.remaining = [])
      : Ending stop finite tally later after (.ok tally)
  | invalid {line : Octets} {flaw : Text.Utf8.Flaw}
      (next : later = line :: messages after.source.remaining) (flawed : isText line = false)
      : Ending stop finite tally later after (.error (.invalid flaw))
  | spent (endless : ¬finite) (left : messages after.source.remaining = later)
      : Ending stop finite tally later after (.ok tally)

/-- The course of a run: the messages it takes and processes, and those still to come. -/
structure Course (change : LineSource → Backend → Backend) (stop : Option Nat) (finite : Prop)
    (p : Pipeline) (tally : Tally) (result : Except ConsumeError Tally) (after : Pipeline)
    (taken : List Taken) (outcomes : List Outcome) (later : List Octets)
    : Prop where
  messages : messages p.source.remaining = taken.map (·.message) ++ later
  texts : ∀ one ∈ taken, isText one.message = true
  early : ∀ one ∈ taken, ∀ order ∈ stop, one.time < order
  works : ∃ done, Works change p taken outcomes done
    ∧ after = done.met after.source after.backend.time
  ending : Ending stop finite (outcomes.foldl Tally.record tally) later after result

variable {finite : Prop} {tally : Tally} {result : Except ConsumeError Tally} {after : Pipeline}
  {source : LineSource} {time : Nat} {taken : List Taken} {outcomes : List Outcome} {later : List Octets}

/-- A run is over without a message. -/
theorem Course.nil (ending : Ending stop finite tally (Queue.messages p.source.remaining)
      (p.met source time) result)
    : Course change stop finite p tally result (p.met source time) [] []
        (Queue.messages p.source.remaining) :=
  ⟨rfl, List.forall_mem_nil _, List.forall_mem_nil _, ⟨p, .nil p, rfl⟩, ending⟩

/-- A poll times out, and then the run goes on. -/
theorem Course.idle (same : Queue.messages source.remaining = Queue.messages p.source.remaining)
    (since : p.backend.time ≤ time)
    (rest : Course change stop finite (p.met source time) tally result after taken outcomes later)
    : Course change stop finite p tally result after taken outcomes later := by
  obtain ⟨done, works, ended⟩ := rest.works
  obtain ⟨doneSo, works, alike⟩ := works.of_met since
  exact ⟨same ▸ rest.messages, rest.texts, rest.early, ⟨doneSo, works, ended.trans (alike _ _).symm⟩,
    rest.ending⟩

/-- A message is processed, and then the run goes on. -/
theorem Course.message {message : Octets}
    (next : Queue.messages p.source.remaining = message :: Queue.messages source.remaining)
    (text : isText message = true) (early : ∀ order ∈ stop, time < order)
    (since : p.backend.time ≤ time)
    (rest : Course change stop finite (processAmid change message (p.met source time)).2
      (tally.record (processAmid change message (p.met source time)).1) result after taken outcomes later)
    : Course change stop finite p tally result after (⟨message, time, source⟩ :: taken)
        ((processAmid change message (p.met source time)).1 :: outcomes) later := by
  obtain ⟨done, works, ended⟩ := rest.works
  refine ⟨?_, List.forall_mem_cons.mpr ⟨text, rest.texts⟩, List.forall_mem_cons.mpr ⟨early, rest.early⟩,
    ⟨done, .cons since works, ended⟩, rest.ending⟩
  have own := rest.messages
  rw [source_processAmid] at own
  rw [next, List.map_cons, List.cons_append, ← own]
  rfl

/-- A run takes messages until it ends, by induction on the polls. -/
theorem course_pollAll (forward : ∀ source b, b.time ≤ (change source b).time) (rounds : Nat)
    (p : Pipeline) (tally : Tally) (enough : finite → Suffices stop horizon rounds p)
    : ∃ taken outcomes later,
        Course change stop finite p tally
          (pollAll (processAmid change) (pollUntil stop) rounds tally p).1
          (pollAll (processAmid change) (pollUntil stop) rounds tally p).2 taken outcomes later := by
  induction rounds generalizing p tally with
  | zero =>
      have endless : ¬finite := fun holds => Nat.not_lt_zero _ (enough holds).enough
      exact ⟨[], [], _, @Course.nil _ _ p _ _ _ p.source p.backend.time (.spent endless rfl)⟩
  | succ rounds ih =>
      have polled := polled_pollUntil stop p
      rw [pollAll]
      generalize pollUntil stop p = made at polled
      cases polled with
      | stopped ordered same => exact ⟨[], [], _, .nil (.stopped ordered same)⟩
      | invalid next flawed => exact ⟨[], [], _, .nil (.invalid next flawed)⟩
      | closed none_ drained => exact ⟨[], [], _, .nil (.closed none_ drained)⟩
      | @timeout source time same waits waited early leaves =>
          have suffices_ (holds : finite) : Suffices stop horizon rounds (p.met source time) := by
            have before := enough holds
            have waiting := before.waiting waits waited early
            exact before.later rfl leaves (.inr ⟨waiting.1, Nat.lt_trans waiting.1 waiting.2⟩)
          obtain ⟨taken, outcomes, later, rest⟩ := ih (p.met source time) tally suffices_
          exact ⟨taken, outcomes, later, rest.idle same leaves.time⟩
      | @message message source time next text fewer early leaves =>
          have forward := time_processAmid forward message (p.met source time)
          have leavesThen : p.source.Leaves p.backend.time
              (processAmid change message (p.met source time)).2.source
              (processAmid change message (p.met source time)).2.backend.time :=
            leaves.trans (.refl source forward)
          have suffices_ (holds : finite) : Suffices stop horizon rounds
              (processAmid change message (p.met source time)).2 :=
            (enough holds).later (pollSpan_processAmid _ _) leavesThen (.inl fewer)
          obtain ⟨taken, outcomes, later, rest⟩ := ih _ _ suffices_
          exact ⟨_, _, later, rest.message next text early leaves.time⟩

end

/-- Whenever the order to stop comes and whatever happens to the surroundings meanwhile, a run over texts
succeeds. It has processed the first messages completely, each of them taken before the order, and the tally,
the store and the reports are those that result from that. All other messages are still in the queue, where
later calls find them, one that had arrived in part included. Unless polls take no time, the run goes on
until the order comes or no message is left.
-/
theorem run_stops_between (change : LineSource → Backend → Backend)
    (forward : ∀ source b, b.time ≤ (change source b).time) (p : Pipeline) (stop : Nat)
    (texts : ∀ line ∈ lines p.source.remaining, isText line = true)
    : let result := (p.runAmid change (some stop)).1
      let after := (p.runAmid change (some stop)).2
      ∃ taken outcomes done later, messages p.source.remaining = taken.map Taken.message ++ later
        ∧ Works change p taken outcomes done
        ∧ (∀ one ∈ taken, one.time < stop)
        ∧ result = .ok (outcomes.foldl Tally.record {})
        ∧ after = done.met after.source after.backend.time
        ∧ (∀ calls now,
            later = (attempts calls after.source now).1.filterMap received?
              ++ messages (attempts calls after.source now).2.1.remaining)
        ∧ (∀ calls now, after.source.IsCompleteBy now →
            (attempts calls after.source now).1
              = (List.range calls.length).map fun k => some (later[k]?.elim (.error .closed) .ok))
        ∧ (0 < p.pollSpan ∨ p.source.IsCompleteBy p.backend.time →
            stop ≤ after.backend.time ∨ later = []) := by
  intro result after
  have texts : ∀ line ∈ messages p.source.remaining, isText line = true := fun line member =>
    texts line (List.mem_of_mem_filter member)
  obtain ⟨taken, outcomes, later, course⟩ :
      ∃ taken outcomes later,
        Course change (some stop) (0 < p.pollSpan ∨ p.source.IsCompleteBy p.backend.time) p {} result after
          taken outcomes later :=
    course_pollAll forward _ p {} fun waits => suffices_run waits (.inl rfl)
  obtain ⟨done, works, ended⟩ := course.works
  rw [course.messages] at texts
  have textsLater : ∀ line ∈ later, isText line = true := fun line member =>
    texts line (List.mem_append_right _ member)
  obtain ⟨succeeds, left, finishes⟩ :
      result = .ok (outcomes.foldl Tally.record {})
        ∧ messages after.source.remaining = later
        ∧ (0 < p.pollSpan ∨ p.source.IsCompleteBy p.backend.time →
            stop ≤ after.backend.time ∨ later = []) := by
    have ending := course.ending
    generalize result = ended at ending
    cases ending with
    | stopped ordered left =>
        obtain ⟨order, ⟨⟩, past⟩ := ordered
        exact ⟨rfl, left, fun _ => .inl past⟩
    | closed none_ drained => exact ⟨rfl, by rw [drained, none_]; rfl, fun _ => .inr none_⟩
    | invalid next flawed =>
        have text := textsLater _ (next ▸ List.mem_cons_self)
        rw [flawed] at text
        cases text
    | spent endless left => exact ⟨rfl, left, fun finite => absurd finite endless⟩
  subst left
  refine ⟨taken, outcomes, done, _, course.messages, works, fun one member => course.early one member stop rfl,
    succeeds, ended, fun calls now => ?_, fun calls now complete => ?_, finishes⟩
  · exact (LineSource.received_attempts calls after.source now textsLater).messages
  · exact LineSource.attempts_complete calls after.source now textsLater complete

/-- The order comes when the first message has been processed, and the second one has arrived in part. -/
theorem run_stops_between_in_line
    : let first := Text.Utf8.ofString "\x7b\"name\":\"Ada\",\"surname\":\"Byron\"\x7d"
      let second := Text.Utf8.ofString "\x7b\"name\":\"4da\",\"surname\":\"Byron\"\x7d"
      let p : Pipeline :=
        { source :=
            { upcoming :=
                [⟨5, first ++ [newline] ++ second.take 8⟩, ⟨40, second.drop 8 ++ [newline]⟩]
              closes := some 50 }
          backend := .answering .nil, pollSpan := 10 }
      (∀ line ∈ lines p.source.remaining, isText line = true)
        ∧ (p.runAmid (fun _ b => b) (some 30)).1 = .ok { saved := 1 }
        ∧ messages (p.runAmid (fun _ b => b) (some 30)).2.source.remaining = [second]
        ∧ ∃ taken outcomes done later, messages p.source.remaining = taken.map Taken.message ++ later
          ∧ Works (fun _ b => b) p taken outcomes done
          ∧ (p.runAmid (fun _ b => b) (some 30)).1 = .ok (outcomes.foldl Tally.record {})
          ∧ ∀ calls now,
            later
              = (attempts calls (p.runAmid (fun _ b => b) (some 30)).2.source now).1.filterMap received?
                ++ messages
                  (attempts calls (p.runAmid (fun _ b => b) (some 30)).2.source now).2.1.remaining := by
  intro first second p
  have texts : ∀ line ∈ lines p.source.remaining, isText line = true := by decide +kernel
  obtain ⟨taken, outcomes, done, later, all, works, -, tally, -, left, -⟩ :=
    run_stops_between (fun _ b => b) (fun _ _ => Nat.le_refl _) p 30 texts
  exact ⟨texts, by decide +kernel, by decide +kernel, taken, outcomes, done, later, all, works, tally, left⟩

end Pipeline
end Queue
end PersonRegistry
