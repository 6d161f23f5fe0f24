import PersonRegistry.Proofs.Json.PrintedValues
import PersonRegistry.Proofs.Person.Coding
import PersonRegistry.Proofs.Queue.Consuming
import PersonRegistry.Queue.Report
import PersonRegistry.Service.Operations

/-! Messages that are written to a queue are what is read from it. All that the program writes itself is a
printed object, which is one line whatever texts it holds: it has no line break, is not blank, and does not
end with a carriage return.
-/

namespace PersonRegistry.Queue

open Text (Octets)

-----------------------------------------------------------------------------------------
-- Messages on lines of their own
-----------------------------------------------------------------------------------------

/-- The octets are what a line source gives for them once they are written with a newline behind. -/
structure IsOneLine (message : Octets) : Prop where
  unbroken : newline ∉ message
  bare : message.getLast? ≠ some carriageReturn
  full : isBlank message = false
  text : isText message = true

variable {message : Octets} {messages : List Octets}

theorem IsOneLine.lines_framed (line : IsOneLine message) (rest : Octets)
    : lines (LineSink.framed message ++ rest) = message :: lines rest := by
  have own : withoutReturn message = message := if_neg line.bare
  rw [LineSink.framed, List.append_assoc, List.singleton_append, lines_append line.unbroken, own]

/-- Each message is a line, by induction on the messages. -/
theorem lines_framed (oneLine : ∀ message ∈ messages, IsOneLine message)
    : lines (messages.flatMap LineSink.framed) = messages := by
  induction messages with
  | nil => rfl
  | cons message later ih =>
      obtain ⟨first, others⟩ := List.forall_mem_cons.mp oneLine
      rw [List.flatMap_cons, first.lines_framed, ih others]

/-- None of them is skipped. -/
theorem messages_framed (oneLine : ∀ message ∈ messages, IsOneLine message)
    : Queue.messages (messages.flatMap LineSink.framed) = messages := by
  rw [Queue.messages, lines_framed oneLine, List.filter_eq_self]
  intro message member
  rw [(oneLine message member).full]
  rfl

/-- Messages are written one after the other, by induction on them. -/
theorem written_foldl_produce (messages : List Octets) (sink : LineSink)
    : (messages.foldl LineSink.produce sink).written
      = sink.written ++ messages.flatMap LineSink.framed := by
  induction messages generalizing sink with
  | nil => simp
  | cons message later ih =>
      rw [List.foldl_cons, ih, LineSink.produce, List.flatMap_cons, List.append_assoc]

-----------------------------------------------------------------------------------------
-- What the program writes itself
-----------------------------------------------------------------------------------------

/-- A text without control characters that starts with a visible one is one line. -/
theorem isOneLine_encode {first : Char} {rest : List Char} (visible : Text.isBlank first = false)
    (printable : Json.Printable (first :: rest))
    : IsOneLine (Text.Utf8.encode (first :: rest)) := by
  have high : ∀ b ∈ Text.Utf8.encode (first :: rest), 0x20 ≤ b := fun b => printable.le_of_mem_encode
  have read : Text.Utf8.decode (Text.Utf8.encode (first :: rest)) = .ok (String.ofList (first :: rest)) :=
    Text.Utf8.decode_encode _
  constructor
  · intro broken
    exact absurd (high newline broken) (by decide)
  · intro last
    exact absurd (high carriageReturn (List.mem_of_getLast? last)) (by decide)
  · rw [isBlank, read]
    simp [visible]
  · rw [isText, read]
    rfl

theorem isOneLine_printMembers {members : List (String × List Char)}
    (printable : ∀ m ∈ members, Json.Printable m.2)
    : IsOneLine (Text.Utf8.encode (Json.printMembers members)) :=
  isOneLine_encode (by decide) (Json.printable_printMembers printable)

/-- A message that the program writes itself: a person, the event about a new person, or the report about
any message that was rejected for any reason.
-/
inductive IsOwn : (message : Octets) → Prop
  | person (p : Person) : IsOwn p.encode
  | created (p : Person) : IsOwn (Service.createdEvent p)
  | report (message : Octets) (rejection : Rejection) : IsOwn (Report.of message rejection).encode

theorem IsOwn.isOneLine (own : IsOwn message) : IsOneLine message := by
  cases own with
  | person p => exact isOneLine_encode (by decide) p.printable_print
  | created p => exact isOneLine_printMembers (Json.Value.printable_printMembersEach _)
  | report message rejection =>
      refine isOneLine_printMembers fun m member => ?_
      rcases List.mem_pair.mp member with rfl | rfl
      · exact (Report.valueOf message).printable_print
      · exact Json.printable_printText rejection.message

/-- Messages that the program writes itself are read back as they were written, whatever pieces they arrive
in, whenever they do, and whichever calls time out or are given up: each of them is a line, in order, and no
line is blank. Calls give the messages in order and each of them once, and fail only by timing out or at
the end. Once everything has arrived, they give the rest one by one, and from then on that the queue is
closed.
-/
theorem attempts_receive_produced (sink : LineSink) (messages : List Octets)
    (own : ∀ message ∈ messages, IsOwn message)
    : let octets := messages.flatMap LineSink.framed
      (messages.foldl LineSink.produce sink).written = sink.written ++ octets
        ∧ lines octets = messages ∧ Queue.messages octets = messages
        ∧ ∀ source : LineSource, source.remaining = octets → ∀ now calls,
            let answers := (LineSource.attempts calls source now).1
            let after := (LineSource.attempts calls source now).2.1
            let time := (LineSource.attempts calls source now).2.2
            ∃ later, messages = answers.filterMap LineSource.received? ++ later
              ∧ (∀ error, some (.error error) ∈ answers →
                  error = .closed ∧ later = [] ∨ ∃ span, error = .timeout span)
              ∧ (source.IsCompleteBy time →
                  ∀ more, (LineSource.attempts more after time).1
                    = (List.range more.length).map fun k =>
                        some (later[k]?.elim (.error .closed) .ok)) := by
  intro octets
  have oneLine : ∀ message ∈ messages, IsOneLine message := fun message member =>
    (own message member).isOneLine
  have all : Queue.messages octets = messages := messages_framed oneLine
  refine ⟨written_foldl_produce messages sink, lines_framed oneLine, all, ?_⟩
  intro source arrives now calls answers after time
  have texts : ∀ line ∈ Queue.messages source.remaining, isText line = true := by
    rw [arrives, all]
    exact fun message member => (oneLine message member).text
  have received : source.Received now answers after time := source.received_attempts calls now texts
  have split : messages = answers.filterMap LineSource.received? ++ Queue.messages after.remaining := by
    rw [← received.messages, arrives, all]
  refine ⟨Queue.messages after.remaining, split, fun error failed => ?_, fun complete more => ?_⟩
  · cases error with
    | closed => exact .inl ⟨rfl, received.closed failed⟩
    | timeout span => exact .inr ⟨span, rfl⟩
    | invalid flaw => exact absurd failed (received.sound flaw)
  · refine after.attempts_complete more time (fun line member => texts line ?_)
      (complete.leaves received.leaves)
    rw [received.messages]
    exact List.mem_append_right _ member

/-- A person whose name breaks the line, and a report about octets that do so and are no text, are given one
by one from a queue that is already complete.
-/
theorem attempts_receive_produced_broken
    : let ada : Person := { name := "Ada\r\n", surname := "\x00" }
      let report := Report.of [0xff, newline, carriageReturn] (.invalid [])
      let messages := [ada.encode, Service.createdEvent ada, report.encode]
      let source : LineSource :=
        { waiting := messages.flatMap LineSink.framed, closes := some 0 }
      (∀ message ∈ messages, IsOwn message)
        ∧ (LineSource.attempts (List.replicate 5 { span := 100 }) source 0).1
          = messages.map (fun message => some (.ok message))
            ++ [some (.error .closed), some (.error .closed)] := by
  intro ada report messages source
  have own : ∀ message ∈ messages, IsOwn message := by
    intro message member
    rcases List.mem_cons.mp member with rfl | member
    · exact .person ada
    rcases List.mem_cons.mp member with rfl | member
    · exact .created ada
    · exact List.mem_singleton.mp member ▸ .report _ _
  have complete : source.IsCompleteBy 0 := ⟨fun _ member => (nomatch member), 0, rfl, Nat.le_refl 0⟩
  obtain ⟨-, -, -, read⟩ := attempts_receive_produced {} messages own
  obtain ⟨later, all, -, given⟩ := read source (List.append_nil _) 0 []
  obtain rfl : messages = later := all
  exact ⟨own, given complete _⟩

end PersonRegistry.Queue
