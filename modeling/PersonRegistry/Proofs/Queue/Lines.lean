import Mathlib.Data.List.Basic
import PersonRegistry.Proofs.Text.Utf8
import PersonRegistry.Queue.LineSource

/-! The lines of a stream of octets, and what a line source takes of them: its next message is the first
line that is not blank, whatever pieces the stream arrives in.
-/

namespace PersonRegistry.Queue

open Text (Octets)
open Time (Span)

-----------------------------------------------------------------------------------------
-- Lines
-----------------------------------------------------------------------------------------

def carriageReturn : UInt8 := 0x0d

/-- The lines of some octets without their ends. A line ends with a newline, to which a carriage return
right before it belongs; the last line needs no end.
-/
def lines : Octets → List Octets
  | [] => []
  | b :: rest =>
      if b = newline then [] :: lines rest
      else if b = carriageReturn ∧ rest.head? = some newline then lines rest
      else
        match lines rest with
        | [] => [[b]]
        | line :: later => (b :: line) :: later

/-- A line is UTF-8. -/
def isText (line : Octets) : Bool := (Text.Utf8.decode line).isOk

/-- A line is a text of nothing but white space. -/
def isBlank (line : Octets) : Bool :=
  match Text.Utf8.decode line with
  | .ok text => text.toList.all Text.isBlank
  | .error _ => false

/-- The messages of some octets: the lines that are not blank. -/
def messages (octets : Octets) : List Octets := (lines octets).filter (!isBlank ·)

variable {octets body raw rest : Octets}

theorem lines_single (free : newline ∉ octets) (some_ : octets ≠ []) : lines octets = [octets] := by
  induction octets with
  | nil => exact absurd rfl some_
  | cons b rest ih =>
      obtain ⟨own, free⟩ := List.ne_and_not_mem_of_not_mem_cons free
      have later : rest.head? ≠ some newline := fun head => free (List.mem_of_head? head)
      rw [lines, if_neg own.symm, if_neg fun both => later both.2]
      cases rest with
      | nil => rfl
      | cons c rest => rw [ih free (List.cons_ne_nil _ _)]

/-- What stands before a newline, without a carriage return at its end. -/
def withoutReturn (body : Octets) : Octets :=
  if body.getLast? = some carriageReturn then body.dropLast else body

theorem withoutReturn_cons_cons (b c : UInt8) (rest : Octets)
    : withoutReturn (b :: c :: rest) = b :: withoutReturn (c :: rest) := by
  rw [withoutReturn, withoutReturn, List.getLast?_cons_cons, List.dropLast_cons_cons]
  split <;> rfl

/-- The first line is what stands before the first newline, by induction on that. -/
theorem lines_append (free : newline ∉ body) (rest : Octets)
    : lines (body ++ newline :: rest) = withoutReturn body :: lines rest := by
  induction body with
  | nil => rw [List.nil_append, lines, if_pos rfl]; rfl
  | cons b body ih =>
      obtain ⟨own, free⟩ := List.ne_and_not_mem_of_not_mem_cons free
      have first := ih free
      rw [List.cons_append, lines, if_neg own.symm]
      cases body with
      | nil =>
          by_cases return_ : b = carriageReturn
          · rw [if_pos ⟨return_, rfl⟩, first, return_]
            rfl
          · have bare : withoutReturn [b] = [b] := by simp [withoutReturn, return_]
            rw [if_neg fun both => return_ both.1, first, bare]
            rfl
      | cons c body =>
          have other : ((c :: body) ++ newline :: rest).head? ≠ some newline := fun head =>
            (List.ne_and_not_mem_of_not_mem_cons free).1 (Option.some.inj head).symm
          rw [if_neg fun both => other both.2, first, withoutReturn_cons_cons]

-----------------------------------------------------------------------------------------
-- Lines as they are taken
-----------------------------------------------------------------------------------------

namespace LineSource

theorem splitLine?_cons (b : UInt8) (rest : Octets)
    : splitLine? (b :: rest)
      = if b = newline then some ([b], rest)
        else (splitLine? rest).map fun found => (b :: found.1, found.2) := by
  by_cases own : b = newline
  · simp [splitLine?, own]
  · simp only [splitLine?, List.takeWhile_cons, own, ne_eq, not_false_eq_true, decide_true, if_true,
      if_false, List.length_cons, List.drop_succ_cons]
    split <;> rfl

/-- The first line is split off with its end, by induction on what it is split off from. -/
theorem splitLine?_eq_some (found : splitLine? octets = some (raw, rest))
    : ∃ body, newline ∉ body ∧ raw = body ++ [newline] ∧ octets = body ++ newline :: rest := by
  induction octets generalizing raw with
  | nil => cases found
  | cons b octets ih =>
      rw [splitLine?_cons] at found
      split at found
      next own =>
        obtain ⟨rfl, rfl⟩ := Prod.mk.inj (Option.some.inj found)
        exact ⟨[], List.not_mem_nil, by rw [own]; rfl, by rw [own]; rfl⟩
      next other =>
        obtain ⟨⟨first, left⟩, split_, same⟩ := Option.map_eq_some_iff.mp found
        obtain ⟨rfl, rfl⟩ := Prod.mk.inj same
        obtain ⟨body, free, rfl, rfl⟩ := ih split_
        exact ⟨b :: body, List.not_mem_cons_of_ne_of_not_mem (Ne.symm other) free, rfl, rfl⟩

theorem splitLine?_eq_none (none_ : splitLine? octets = none) : newline ∉ octets := by
  induction octets with
  | nil => exact List.not_mem_nil
  | cons b octets ih =>
      rw [splitLine?_cons] at none_
      split at none_
      next => cases none_
      next other =>
        exact List.not_mem_cons_of_ne_of_not_mem (Ne.symm other) (ih (Option.map_eq_none_iff.mp none_))

/-- A line with its end, or one that has none. -/
inductive Ended : (raw line : Octets) → Prop
  | last (line : Octets) : Ended line line
  | newline (line : Octets) : Ended (line ++ [Queue.newline]) line
  | both (line : Octets) : Ended (line ++ [carriageReturn] ++ [Queue.newline]) line

theorem withoutEnd_last (free : newline ∉ octets) : withoutEnd octets = octets := by
  have other : octets.getLast? ≠ some newline := fun last => free (List.mem_of_getLast? last)
  rw [withoutEnd, if_neg other]

theorem withoutEnd_concat (body : Octets) : withoutEnd (body ++ [newline]) = withoutReturn body := by
  simp only [withoutEnd, List.getLast?_concat, if_true, List.dropLast_concat]
  rfl

theorem ended_withoutEnd (body : Octets) : Ended (body ++ [newline]) (withoutReturn body) := by
  rw [withoutReturn]
  split
  next last =>
    obtain ⟨start, rfl⟩ := List.getLast?_eq_some_iff.mp last
    rw [List.dropLast_concat]
    exact .both start
  next => exact .newline body

/-- What a line brings. -/
inductive Brings (line : Octets) : Option (Except ConsumeError Octets) → Prop
  | blank (blank : isBlank line = true) : Brings line none
  | message (full : isBlank line = false) (text : isText line = true)
      : Brings line (some (.ok line))
  | invalid {flaw : Text.Utf8.Flaw} (full : isBlank line = false) (flawed : isText line = false)
      : Brings line (some (.error (.invalid flaw)))

/-- The end of a line is white space, and does not change whether the line is a text. -/
theorem decode_ended {raw line : Octets} (ended : Ended raw line)
    : match Text.Utf8.decode line with
      | .ok text => ∃ whole, Text.Utf8.decode raw = .ok whole
          ∧ whole.toList.all Text.isBlank = text.toList.all Text.isBlank
      | .error _ => ∃ flaw, Text.Utf8.decode raw = .error flaw := by
  have newlineRead (octets : Octets) := Text.Utf8.decode_concat (b := newline) (by decide) octets
  have returnRead := Text.Utf8.decode_concat (b := carriageReturn) (by decide) line
  have blank : Text.isBlank (Char.ofNat newline.toNat) = true := by decide
  have blankToo : Text.isBlank (Char.ofNat carriageReturn.toNat) = true := by decide
  cases own : Text.Utf8.decode line with
  | ok text =>
      rw [own] at returnRead
      cases ended with
      | last => exact ⟨text, own, rfl⟩
      | newline =>
          have read := newlineRead line
          rw [own] at read
          exact ⟨_, read, by simp [blank]⟩
      | both =>
          have read := newlineRead (line ++ [carriageReturn])
          simp only at returnRead
          rw [returnRead] at read
          exact ⟨_, read, by simp [blank, blankToo]⟩
  | error flaw =>
      rw [own] at returnRead
      cases ended with
      | last => exact ⟨flaw, own⟩
      | newline =>
          have read := newlineRead line
          rw [own] at read
          exact read
      | both =>
          obtain ⟨other, flawed⟩ := returnRead
          have read := newlineRead (line ++ [carriageReturn])
          rw [flawed] at read
          exact read

/-- A line brings the same with its end as without it. -/
theorem brings_readLine? {raw line : Octets} (ended : Ended raw line) (bare : withoutEnd raw = line)
    : Brings line (readLine? raw) := by
  have read := decode_ended ended
  rw [readLine?]
  cases own : Text.Utf8.decode line with
  | ok text =>
      rw [own] at read
      obtain ⟨whole, read, same⟩ := read
      have text_ : isText line = true := by rw [isText, own]; rfl
      have blank : isBlank line = isBlankLine whole := by rw [isBlank, own, isBlankLine, same]
      rw [read]
      simp only [bare, ← blank]
      cases blank_ : isBlank line with
      | true => exact .blank blank_
      | false => exact .message blank_ text_
  | error flaw =>
      rw [own] at read
      obtain ⟨other, read⟩ := read
      rw [read]
      exact .invalid (by rw [isBlank, own]) (by rw [isText, own]; rfl)

end LineSource
end PersonRegistry.Queue
