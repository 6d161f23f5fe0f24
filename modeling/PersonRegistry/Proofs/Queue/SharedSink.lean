import Mathlib.Data.List.Induction
import Mathlib.Logic.Relation
import PersonRegistry.Proofs.Queue.Framing

/-! A line sink that calls share. Each of them has it for itself for a turn, in which it writes its message and
then the newline, and a turn may end at any point: the call has failed or is given up. What it has written until
then stays, so the next message that is written whole stands behind it on the same line.
-/

namespace PersonRegistry.Queue

open Text (Octets)

-----------------------------------------------------------------------------------------
-- Turns
-----------------------------------------------------------------------------------------

/-- What a call has done in its turn: how many octets it has written of its line, that is its message and the
newline, and whether it has told that it succeeded.
-/
structure Turn where
  message : Octets
  size : Nat := 0
  succeeded : Bool := false
  deriving DecidableEq, Repr

namespace Turn

def piece (t : Turn) : Octets := (LineSink.framed t.message).take t.size

/-- The whole line is written, with the newline. -/
def isWhole (t : Turn) : Bool := t.message.length < t.size

/-- Something is written of the message, and no newline. -/
def isTorn (t : Turn) : Bool := 0 < t.size ∧ t.size ≤ t.message.length

/-- A turn writes no more than its line, and a call succeeds once that is written. -/
structure Fits (t : Turn) : Prop where
  size : t.size ≤ t.message.length + 1
  succeeded : t.succeeded = true → t.isWhole = true

def writeTo (sink : LineSink) (t : Turn) : LineSink := sink.produceUpTo t.message t.size

variable {t : Turn}

theorem written_writeTo (sink : LineSink) (t : Turn) : (t.writeTo sink).written = sink.written ++ t.piece :=
  rfl

theorem piece_of_not_whole (short : t.isWhole = false) : t.piece = t.message.take t.size := by
  rw [isWhole, decide_eq_false_iff_not, Nat.not_lt] at short
  rw [piece, LineSink.framed, List.take_append_of_le_length short]

theorem piece_of_whole (whole : t.isWhole = true) : t.piece = LineSink.framed t.message := by
  rw [isWhole, decide_eq_true_eq] at whole
  refine List.take_of_length_le ?_
  rw [LineSink.framed, List.length_append, List.length_singleton]
  exact whole

/-- A turn that writes the whole line writes what a call does that nothing interrupts. -/
theorem writeTo_of_whole (whole : t.isWhole = true) (sink : LineSink)
    : t.writeTo sink = sink.produce t.message := by
  rw [LineSink.produce, ← piece_of_whole whole]
  rfl

theorem piece_eq_nil (silent : t.size = 0) : t.piece = [] := by
  rw [piece, silent, List.take_zero]

theorem piece_ne_nil (torn : t.isTorn = true) : t.piece ≠ [] := by
  rw [isTorn, decide_eq_true_eq] at torn
  intro nothing
  rw [piece, LineSink.framed, List.take_eq_nil_iff] at nothing
  rcases nothing with silent | empty
  · omega
  · exact absurd empty (List.append_ne_nil_of_right_ne_nil _ (List.cons_ne_nil _ _))

/-- A turn writes its line, a part of its message, or nothing. -/
theorem cases_written (t : Turn) : t.isWhole = true ∨ t.isTorn = true ∨ t.size = 0 := by
  simp only [isWhole, isTorn, decide_eq_true_eq]
  omega

theorem not_torn_of_whole (whole : t.isWhole = true) : t.isTorn = false := by
  rw [isWhole, decide_eq_true_eq] at whole
  simp only [isTorn, decide_eq_false_iff_not]
  omega

theorem not_whole_of_torn (torn : t.isTorn = true) : t.isWhole = false := by
  rw [isTorn, decide_eq_true_eq] at torn
  simp only [isWhole, decide_eq_false_iff_not]
  omega

theorem not_whole_of_silent (silent : t.size = 0) : t.isWhole = false ∧ t.isTorn = false := by
  simp [isWhole, isTorn, silent]

theorem piece_write {octets rest : Octets} (left : t.message.drop t.size = octets ++ rest)
    : piece { t with size := t.size + octets.length } = t.piece ++ octets := by
  have next : ((LineSink.framed t.message).drop t.size).take octets.length = octets := by
    by_cases within : t.size ≤ t.message.length
    · rw [LineSink.framed, List.drop_append_of_le_length within, left, List.append_assoc, List.take_left]
    · rw [List.drop_eq_nil_of_le (Nat.le_of_not_le within)] at left
      rw [(List.append_eq_nil_iff.mp left.symm).1, List.length_nil, List.take_zero]
  rw [piece, piece, List.take_add, next]

theorem piece_newline (written : t.size = t.message.length)
    : piece { t with size := t.size + 1 } = t.piece ++ [newline] := by
  rw [piece, piece, written, LineSink.framed, List.take_left, List.take_of_length_le]
  rw [List.length_append, List.length_singleton]

theorem Fits.write {octets rest : Octets} (fits : t.Fits) (left : t.message.drop t.size = octets ++ rest)
    : Fits { t with size := t.size + octets.length } := by
  have lengths := congrArg List.length left
  rw [List.length_drop, List.length_append] at lengths
  obtain ⟨size, succeeded⟩ := fits
  refine ⟨?_, fun told => ?_⟩
  · simp only
    omega
  · have whole := succeeded told
    rw [isWhole, decide_eq_true_eq] at whole ⊢
    exact Nat.lt_add_right _ whole

theorem fits_newline (written : t.size = t.message.length)
    : Fits { t with size := t.size + 1 } := by
  refine ⟨Nat.succ_le_succ (Nat.le_of_eq written), fun _ => ?_⟩
  rw [isWhole, decide_eq_true_eq]
  exact Nat.lt_succ_of_le (Nat.le_of_eq written.symm)

end Turn

-----------------------------------------------------------------------------------------
-- The lines that turns leave
-----------------------------------------------------------------------------------------

/-- Lines, and octets behind them that no newline ends. -/
structure Page where
  ended : List Octets := []
  unended : Octets := []
  deriving DecidableEq, Repr

namespace Page

def octets (page : Page) : Octets := page.ended.flatMap LineSink.framed ++ page.unended

/-- A whole turn ends the line that stands open, any other goes on with it. -/
def add (page : Page) (t : Turn) : Page :=
  if t.isWhole then ⟨page.ended ++ [page.unended ++ t.message], []⟩
  else ⟨page.ended, page.unended ++ t.piece⟩

/-- The page that turns leave, one after another. -/
def of (turns : List Turn) : Page := turns.foldl add {}

variable {page : Page} {turns before after : List Turn} {t : Turn}

theorem of_concat (turns : List Turn) (t : Turn) : of (turns ++ [t]) = (of turns).add t := by
  rw [of, of, List.foldl_append]
  rfl

theorem octets_add (page : Page) (t : Turn) : (page.add t).octets = page.octets ++ t.piece := by
  rw [add]
  split
  next whole =>
    rw [Turn.piece_of_whole whole]
    simp only [octets, List.flatMap_append, List.flatMap_singleton, LineSink.framed, List.append_assoc,
      List.append_nil]
  next => simp only [octets, List.append_assoc]

/-- The octets of a page are what the turns have written, by induction on the turns. -/
theorem octets_of (turns : List Turn) : (of turns).octets = turns.flatMap Turn.piece := by
  induction turns using List.reverseRecOn with
  | nil => rfl
  | append_singleton turns t ih =>
      rw [of_concat, octets_add, ih, List.flatMap_append, List.flatMap_singleton]

/-- No turn changes a line that has ended. -/
theorem ended_foldl_add (turns : List Turn) (page : Page)
    : ∃ more, (turns.foldl add page).ended = page.ended ++ more := by
  induction turns generalizing page with
  | nil => exact ⟨[], (List.append_nil _).symm⟩
  | cons t later ih =>
      obtain ⟨more, lines⟩ := ih (page.add t)
      rw [List.foldl_cons, lines, add]
      split
      next => exact ⟨_, List.append_assoc _ _ _⟩
      next => exact ⟨more, rfl⟩

/-- A whole turn ends a line: what stood open before it, and its message. -/
theorem ended_of_whole (whole : t.isWhole = true) (before after : List Turn)
    : ∃ more, (of (before ++ t :: after)).ended
        = (of before).ended ++ ((of before).unended ++ t.message) :: more := by
  obtain ⟨more, lines⟩ := ended_foldl_add after ((of before).add t)
  refine ⟨more, ?_⟩
  have steps : of (before ++ t :: after) = after.foldl add ((of before).add t) := by
    rw [of, List.foldl_append, List.foldl_cons]
    rfl
  rw [steps, lines, add, if_pos whole, List.append_assoc, List.singleton_append]

/-- No line and nothing behind the lines has a newline in it, if no message has. -/
theorem unbroken_of (unbroken : ∀ t ∈ turns, newline ∉ t.message)
    : (∀ line ∈ (of turns).ended, newline ∉ line) ∧ newline ∉ (of turns).unended := by
  induction turns using List.reverseRecOn with
  | nil => exact ⟨List.forall_mem_nil _, List.not_mem_nil⟩
  | append_singleton turns t ih =>
      rw [List.forall_mem_append, List.forall_mem_singleton] at unbroken
      obtain ⟨lines, rest⟩ := ih unbroken.1
      rw [of_concat, add]
      split
      next =>
        refine ⟨fun line member => ?_, List.not_mem_nil⟩
        rcases List.mem_append.mp member with old | last
        · exact lines line old
        · obtain rfl := List.mem_singleton.mp last
          exact List.not_mem_append rest unbroken.2
      next short =>
        refine ⟨lines, List.not_mem_append rest fun broken => unbroken.2 ?_⟩
        rw [Turn.piece_of_not_whole (Bool.eq_false_iff.mpr short)] at broken
        exact List.mem_of_mem_take broken

end Page

/-- The last of the turns that has written anything has written a whole line. -/
def AtLineStart (turns : List Turn) : Prop :=
  ∀ t ∈ (turns.filter fun t => 0 < t.size).getLast?, t.isWhole = true

/-- Nothing stands open exactly if the last turn that has written anything was a whole one. By induction on the
turns.
-/
theorem unended_eq_nil_iff (turns : List Turn) : (Page.of turns).unended = [] ↔ AtLineStart turns := by
  induction turns using List.reverseRecOn with
  | nil => simp [Page.of, AtLineStart]
  | append_singleton turns t ih =>
      rw [Page.of_concat, Page.add, AtLineStart, List.filter_append]
      rcases t.cases_written with whole | torn | silent
      · have writes : 0 < t.size := Nat.zero_lt_of_lt (of_decide_eq_true whole)
        simp [whole, writes]
      · have short := Turn.not_whole_of_torn torn
        have writes : 0 < t.size := (of_decide_eq_true torn).1
        simp [short, writes, Turn.piece_ne_nil torn]
      · have short := (Turn.not_whole_of_silent silent).1
        simp only [short, Bool.false_eq_true, if_false, Turn.piece_eq_nil silent, List.append_nil]
        rw [ih, AtLineStart]
        simp [silent]

/-- No turn writes anything behind one that has torn its line. -/
def Tidy (turns : List Turn) : Prop := turns.Pairwise fun t u => t.isTorn = true → u.size = 0

instance (turns : List Turn) : Decidable (Tidy turns) :=
  inferInstanceAs (Decidable (turns.Pairwise fun t u => t.isTorn = true → u.size = 0))

/-- The lines are the messages of the turns that have written theirs, and of one other message at most a part is
written.
-/
def OneMessageEach (turns : List Turn) : Prop :=
  (Page.of turns).ended = (turns.filter Turn.isWhole).map Turn.message
    ∧ (turns.filter Turn.isTorn).length ≤ 1

section

variable {turns : List Turn} {t : Turn}

theorem tidy_concat
    : Tidy (turns ++ [t]) ↔ Tidy turns ∧ ∀ earlier ∈ turns, earlier.isTorn = true → t.size = 0 := by
  simp [Tidy, List.pairwise_append]

/-- Turns that leave no torn line behind them leave what they were to write, and what stands open is what the
torn one of them has written. By induction on the turns.
-/
theorem Tidy.lines (tidy : Tidy turns)
    : OneMessageEach turns ∧ (Page.of turns).unended = (turns.filter Turn.isTorn).flatMap Turn.piece := by
  induction turns using List.reverseRecOn with
  | nil => exact ⟨⟨rfl, Nat.zero_le 1⟩, rfl⟩
  | append_singleton turns t ih =>
      obtain ⟨tidy, quiet⟩ := tidy_concat.mp tidy
      obtain ⟨⟨ended, few⟩, unended⟩ := ih tidy
      have noneTorn (writes : t.size ≠ 0) : turns.filter Turn.isTorn = [] :=
        List.filter_eq_nil_iff.mpr fun earlier member torn => writes (quiet earlier member torn)
      rw [OneMessageEach, Page.of_concat, Page.add, List.filter_append, List.filter_append]
      rcases t.cases_written with whole | torn | silent
      · have untouched := noneTorn (Nat.ne_zero_of_lt (of_decide_eq_true whole))
        rw [untouched, List.flatMap_nil] at unended
        simp [whole, Turn.not_torn_of_whole whole, ended, unended, untouched]
      · have untouched := noneTorn (Nat.ne_zero_of_lt (of_decide_eq_true torn).1)
        rw [untouched, List.flatMap_nil] at unended
        simp [torn, Turn.not_whole_of_torn torn, ended, unended, untouched]
      · obtain ⟨short, untorn⟩ := Turn.not_whole_of_silent silent
        simp [short, untorn, Turn.piece_eq_nil silent, ended, unended, few]

/-- Lines are one message each only where no torn line is left behind, by induction on the turns: a whole turn
behind a torn one ends a line that is longer than its message.
-/
theorem OneMessageEach.tidy (each : OneMessageEach turns) : Tidy turns := by
  induction turns using List.reverseRecOn with
  | nil => exact .nil
  | append_singleton turns t ih =>
      rw [OneMessageEach, Page.of_concat, Page.add, List.filter_append, List.filter_append] at each
      obtain ⟨ended, few⟩ := each
      rcases t.cases_written with whole | torn | silent
      · simp only [whole, if_true, List.filter_cons_of_pos, List.filter_nil, List.map_append, List.map_cons,
          List.map_nil, Turn.not_torn_of_whole whole, Bool.false_eq_true, not_false_eq_true,
          List.filter_cons_of_neg, List.append_nil] at ended few
        obtain ⟨ended, last⟩ := List.append_inj' ended rfl
        have tidy := ih ⟨ended, few⟩
        have nothing : (Page.of turns).unended = [] :=
          List.append_left_eq_self.mp (List.cons.inj last).1
        refine tidy_concat.mpr ⟨tidy, fun earlier member torn => ?_⟩
        rw [tidy.lines.2, List.flatMap_eq_nil_iff] at nothing
        exact absurd (nothing earlier (List.mem_filter.mpr ⟨member, torn⟩)) (Turn.piece_ne_nil torn)
      · simp only [torn, List.filter_cons_of_pos, List.filter_nil, List.length_append, List.length_singleton,
          Turn.not_whole_of_torn torn, Bool.false_eq_true, if_false, not_false_eq_true,
          List.filter_cons_of_neg, List.append_nil] at ended few
        have untouched : turns.filter Turn.isTorn = [] := List.length_eq_zero_iff.mp (by omega)
        refine tidy_concat.mpr ⟨ih ⟨ended, by simp [untouched]⟩, fun earlier member tornToo => ?_⟩
        exact absurd tornToo (List.filter_eq_nil_iff.mp untouched earlier member)
      · obtain ⟨short, untorn⟩ := Turn.not_whole_of_silent silent
        simp only [short, untorn, Bool.false_eq_true, if_false, not_false_eq_true, List.filter_cons_of_neg,
          List.filter_nil, List.append_nil] at ended few
        exact tidy_concat.mpr ⟨ih ⟨ended, few⟩, fun _ _ _ => silent⟩

theorem oneMessageEach_iff : OneMessageEach turns ↔ Tidy turns :=
  ⟨OneMessageEach.tidy, fun tidy => tidy.lines.1⟩

end

-----------------------------------------------------------------------------------------
-- Calls that share a sink
-----------------------------------------------------------------------------------------

/-- A sink that calls share: those that wait for it, the turns that are over, in their order, and the turn of the
call that has the sink for itself.
-/
structure SharedSink where
  sink : LineSink := {}
  waiting : List Octets := []
  past : List Turn := []
  current : Option Turn := none

namespace SharedSink

/-- All turns so far, the last of which may go on. -/
def turns (s : SharedSink) : List Turn := s.past ++ s.current.toList

/-- A step of one of the calls. A message is written in as many pieces as the sink takes it in, and the newline
behind it. A call has succeeded once it has flushed what it wrote; a call that fails or is given up stops where
it is.
-/
inductive Step : SharedSink → SharedSink → Prop
  | call (message : Octets) (s : SharedSink) : Step s { s with waiting := s.waiting ++ [message] }
  | leave {s : SharedSink} {before after : List Octets} {message : Octets}
      (waits : s.waiting = before ++ message :: after)
    : Step s { s with waiting := before ++ after }
  | enter {s : SharedSink} {before after : List Octets} {message : Octets}
      (waits : s.waiting = before ++ message :: after) (free : s.current = none)
    : Step s { s with waiting := before ++ after, current := some { message } }
  | write {s : SharedSink} {t : Turn} {octets rest : Octets} (own : s.current = some t)
      (left : t.message.drop t.size = octets ++ rest)
    : Step s
        { s with
          sink := ⟨s.sink.written ++ octets⟩
          current := some { t with size := t.size + octets.length } }
  | newline {s : SharedSink} {t : Turn} (own : s.current = some t) (written : t.size = t.message.length)
    : Step s
        { s with
          sink := ⟨s.sink.written ++ [Queue.newline]⟩
          current := some { t with size := t.size + 1 } }
  | flush {s : SharedSink} {t : Turn} (own : s.current = some t) (whole : t.isWhole = true)
    : Step s { s with past := s.past ++ [{ t with succeeded := true }], current := none }
  | stop {s : SharedSink} {t : Turn} (own : s.current = some t)
    : Step s { s with past := s.past ++ [t], current := none }

abbrev Steps : SharedSink → SharedSink → Prop := Relation.ReflTransGen Step

/-- The sink holds what it held at first, and behind that what each turn has written. -/
structure Coherent (start : LineSink) (s : SharedSink) : Prop where
  written : s.sink.written = start.written ++ s.turns.flatMap Turn.piece
  fits : ∀ t ∈ s.turns, t.Fits

variable {start : LineSink} {s after : SharedSink} {t u : Turn}

theorem turns_of_current (own : s.current = some t) : s.turns = s.past ++ [t] := by
  rw [turns, own, Option.toList_some]

theorem Coherent.of_same (coherent : Coherent start s) (sink : after.sink = s.sink)
    (same : after.turns = s.turns)
    : Coherent start after :=
  ⟨by rw [sink, same, coherent.written], by rw [same]; exact coherent.fits⟩

/-- Where a turn goes on or ends, it alone has written since. -/
theorem Coherent.goesOn {octets : Octets} (coherent : Coherent start s) (own : s.current = some t)
    (sink : after.sink.written = s.sink.written ++ octets) (turn : after.turns = s.past ++ [u])
    (piece : u.piece = t.piece ++ octets) (fits : t.Fits → u.Fits)
    : Coherent start after := by
  obtain ⟨written, all⟩ := coherent
  rw [turns_of_current own, List.flatMap_append, List.flatMap_singleton] at written
  rw [turns_of_current own, List.forall_mem_append, List.forall_mem_singleton] at all
  constructor
  · rw [sink, written, turn, List.flatMap_append, List.flatMap_singleton, piece]
    simp only [List.append_assoc]
  · rw [turn, List.forall_mem_append, List.forall_mem_singleton]
    exact ⟨all.1, fits all.2⟩

/-- Every step keeps it, by cases on the step. -/
theorem Coherent.step (coherent : Coherent start s) (step : Step s after) : Coherent start after := by
  cases step with
  | call | leave => exact coherent.of_same rfl rfl
  | @enter _ _ _ message waits free =>
      have turns : s.turns = s.past := by rw [SharedSink.turns, free, Option.toList_none, List.append_nil]
      obtain ⟨written, fits⟩ := coherent
      rw [turns] at written fits
      have fitting : Turn.Fits { message } := ⟨Nat.zero_le _, nofun⟩
      constructor
      · simp only [SharedSink.turns, Option.toList_some, List.flatMap_append, List.flatMap_singleton]
        rw [Turn.piece_eq_nil rfl, List.append_nil]
        exact written
      · simp only [SharedSink.turns, Option.toList_some, List.forall_mem_append, List.forall_mem_singleton]
        exact ⟨fits, fitting⟩
  | write own left =>
      exact coherent.goesOn own rfl rfl (Turn.piece_write left) fun fits => fits.write left
  | newline own written =>
      exact coherent.goesOn own rfl rfl (Turn.piece_newline written) fun _ => Turn.fits_newline written
  | flush own whole =>
      exact coherent.goesOn own (List.append_nil _).symm (List.append_nil _) (List.append_nil _).symm
        fun fits => ⟨fits.size, fun _ => whole⟩
  | stop own =>
      exact coherent.goesOn own (List.append_nil _).symm (List.append_nil _) (List.append_nil _).symm id

theorem Coherent.steps (coherent : Coherent start s) (steps : Steps s after) : Coherent start after := by
  induction steps with
  | refl => exact coherent
  | tail _ step ih => exact ih.step step

theorem foldl_writeTo (turns : List Turn) (start : LineSink)
    : (turns.foldl Turn.writeTo start).written = start.written ++ turns.flatMap Turn.piece := by
  induction turns generalizing start with
  | nil => exact (List.append_nil _).symm
  | cons t later ih =>
      rw [List.foldl_cons, ih, Turn.written_writeTo, List.flatMap_cons, List.append_assoc]

-----------------------------------------------------------------------------------------
-- All turns that there may be
-----------------------------------------------------------------------------------------

/-- A call that finds the sink free may write as much of its line as one likes. -/
theorem steps_writing (sink : LineSink) (past : List Turn) (message : Octets) {size : Nat}
    (fits : size ≤ message.length + 1)
    : Steps { sink, past }
        { sink := sink.produceUpTo message size, past, current := some { message, size } } := by
  have waits : [message] = [] ++ message :: [] := rfl
  have left : message.drop 0 = message.take size ++ message.drop size := by
    rw [List.drop_zero, List.take_append_drop]
  have entered : Steps { sink, past } { sink, past, current := some { message } } :=
    (Relation.ReflTransGen.single (.call message { sink, past })).tail
      (Step.enter (s := { sink, waiting := [message], past }) waits rfl)
  have begun : Steps { sink, past }
      { sink := ⟨sink.written ++ message.take size⟩
        past
        current := some { message, size := min size message.length } } := by
    have written := entered.tail (Step.write (t := { message }) rfl left)
    rw [Nat.zero_add, List.length_take] at written
    exact written
  by_cases short : size ≤ message.length
  · rw [Nat.min_eq_left short] at begun
    rw [LineSink.produceUpTo, LineSink.framed, List.take_append_of_le_length short]
    exact begun
  · obtain rfl : size = message.length + 1 := Nat.le_antisymm fits (Nat.lt_of_not_le short)
    rw [Nat.min_eq_right (Nat.le_succ _), List.take_of_length_le (Nat.le_succ _)] at begun
    rw [LineSink.produceUpTo, LineSink.framed, List.take_of_length_le (by simp), ← List.append_assoc]
    exact begun.tail (Step.newline (t := { message, size := message.length }) rfl rfl)

/-- Any turn that fits may be next: its call writes as much as the turn says, and then succeeds or stops. -/
theorem steps_turn (sink : LineSink) (past : List Turn) (fits : t.Fits)
    : Steps { sink, past } { sink := t.writeTo sink, past := past ++ [t] } := by
  obtain ⟨message, size, succeeded⟩ := t
  obtain ⟨most, told⟩ := fits
  have written := steps_writing sink past message most
  cases succeeded with
  | true => exact written.tail (Step.flush (t := { message, size }) rfl (told rfl))
  | false => exact written.tail (Step.stop (t := { message, size }) rfl)

/-- So may any turns, one after another. -/
theorem steps_turns {turns : List Turn} (fits : ∀ t ∈ turns, t.Fits) (sink : LineSink) (past : List Turn)
    : Steps { sink, past } { sink := turns.foldl Turn.writeTo sink, past := past ++ turns } := by
  induction turns generalizing sink past with
  | nil => rw [List.append_nil]; exact .refl
  | cons t later ih =>
      obtain ⟨first, others⟩ := List.forall_mem_cons.mp fits
      have next := ih others (t.writeTo sink) (past ++ [t])
      rw [List.append_assoc, List.singleton_append] at next
      exact (steps_turn sink past first).trans next

end SharedSink

/-- However calls share a sink, take turns, fail and are given up, the sink holds what each turn has written of
its line, one after another, and any such turns may come about. A turn that wrote its whole line has ended a
line: its message is all of that exactly if the last turn before it that wrote anything had written its whole
line too, and otherwise stands behind what was torn. So lines are one message each, with a part of one other
behind them at most, exactly if no turn writes anything behind one that has torn its line.
-/
theorem lines_of_turns {start : LineSink} {s : SharedSink} (reached : SharedSink.Steps { sink := start } s)
    : s.sink = s.turns.foldl Turn.writeTo start
      ∧ (∀ t ∈ s.turns, t.size ≤ t.message.length + 1
          ∧ (t.succeeded = true → t.isWhole = true)
          ∧ (t.isWhole = true → ∀ sink : LineSink, t.writeTo sink = sink.produce t.message))
      ∧ s.sink.written = start.written ++ (Page.of s.turns).octets
      ∧ ((∀ t ∈ s.turns, newline ∉ t.message) →
          (∀ line ∈ (Page.of s.turns).ended, newline ∉ line) ∧ newline ∉ (Page.of s.turns).unended)
      ∧ (∀ before t after, s.turns = before ++ t :: after → t.isWhole = true →
          (∃ more, (Page.of s.turns).ended
              = (Page.of before).ended ++ ((Page.of before).unended ++ t.message) :: more)
            ∧ ((Page.of before).unended = [] ↔ AtLineStart before))
      ∧ (OneMessageEach s.turns ↔ Tidy s.turns)
      ∧ ∀ turns : List Turn, (∀ t ∈ turns, t.Fits) → ∃ after, SharedSink.Steps { sink := start } after
          ∧ after.turns = turns := by
  have coherent : SharedSink.Coherent start s :=
    SharedSink.Coherent.steps ⟨(List.append_nil _).symm, List.forall_mem_nil _⟩ reached
  have written := coherent.written
  refine ⟨?_, fun t member => ?_, ?_, Page.unbroken_of, fun before t after turns whole => ⟨?_, ?_⟩,
    oneMessageEach_iff, fun turns fits => ⟨_, SharedSink.steps_turns fits start [], ?_⟩⟩
  · rw [← SharedSink.foldl_writeTo] at written
    exact congrArg LineSink.mk written
  · obtain ⟨size, succeeded⟩ := coherent.fits t member
    exact ⟨size, succeeded, Turn.writeTo_of_whole⟩
  · rw [written, Page.octets_of]
  · rw [turns]
    exact Page.ended_of_whole whole before after
  · exact unended_eq_nil_iff before
  · exact List.append_nil turns

/-- Three calls that write the same message, of which the second stops in the middle and a fourth before it has
written anything: the line of the third is spoiled, and a fifth has one of its own again.
-/
theorem lines_of_turns_spoiled
    : let message := Text.Utf8.ofString "\x7b\"a\":1\x7d"
      let whole : Turn := { message, size := 8, succeeded := true }
      let turns := [whole, { message, size := 4 }, whole, { message }, whole]
      ∃ s : SharedSink, SharedSink.Steps {} s ∧ s.turns = turns
        ∧ s.sink.written
          = Text.Utf8.ofString "\x7b\"a\":1\x7d\n\x7b\"a\"\x7b\"a\":1\x7d\n\x7b\"a\":1\x7d\n"
        ∧ ¬AtLineStart (turns.take 2) ∧ AtLineStart (turns.take 4) ∧ ¬OneMessageEach turns := by
  intro message whole turns
  have fits : ∀ t ∈ turns, t.Fits := by
    intro t member
    simp only [turns, List.mem_cons, List.not_mem_nil, or_false] at member
    rcases member with rfl | rfl | rfl | rfl | rfl <;> exact ⟨by decide, by decide⟩
  have reached : SharedSink.Steps {} { sink := turns.foldl Turn.writeTo {}, past := turns } :=
    SharedSink.steps_turns fits {} []
  obtain ⟨-, -, written, -, standsAt, each, -⟩ := lines_of_turns reached
  refine ⟨_, reached, rfl, written.trans (by decide), fun free => ?_, ?_, fun one => ?_⟩
  · have own := (standsAt (turns.take 2) whole _ rfl (by decide)).2.mpr free
    exact absurd own (by decide)
  · exact (standsAt (turns.take 4) whole _ rfl (by decide)).2.mp (by decide)
  · have untidy : ¬Tidy turns := by decide
    exact untidy (each.mp one)

/-- A call is given up in the middle of its message, and the next one succeeds: its message stands on no line of
its own, but behind a part of the other one, and who reads the line gets neither of them.
-/
theorem lines_torn
    : let first := Text.Utf8.ofString "\x7b\"a\":1\x7d"
      let second := Text.Utf8.ofString "\x7b\"b\":2\x7d"
      let torn := Text.Utf8.ofString "\x7b\"a\":\x7b\"b\":2\x7d"
      ∃ s : SharedSink, SharedSink.Steps {} s
        ∧ s.turns = [{ message := first, size := 5 }, { message := second, size := 8, succeeded := true }]
        ∧ newline ∉ first ∧ newline ∉ second
        ∧ s.sink.written = LineSink.framed torn
        ∧ messages s.sink.written = [torn] ∧ torn ≠ first ∧ torn ≠ second := by
  intro first second torn
  let turns : List Turn := [{ message := first, size := 5 }, { message := second, size := 8, succeeded := true }]
  have fits : ∀ t ∈ turns, t.Fits := by
    intro t member
    simp only [turns, List.mem_cons, List.not_mem_nil, or_false] at member
    rcases member with rfl | rfl <;> exact ⟨by decide, by decide⟩
  have reached : SharedSink.Steps {} { sink := turns.foldl Turn.writeTo {}, past := turns } :=
    SharedSink.steps_turns fits {} []
  have written : (turns.foldl Turn.writeTo {}).written = LineSink.framed torn := by decide
  refine ⟨_, reached, rfl, by decide, by decide, written, ?_, by decide, by decide⟩
  rw [written]
  decide

end PersonRegistry.Queue
