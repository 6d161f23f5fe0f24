import PersonRegistry.Json.Cause
import PersonRegistry.Text.Utf8

/-! Readers take octets from the front of a JSON text. A failure remembers how many octets were left, so
its line and column follow from the whole text and no reader has to count them.
-/

namespace PersonRegistry.Json

open Text (Octets)

/-! The octets that mean something to the syntax. -/

namespace Octet

@[match_pattern] abbrev quote : UInt8 := 0x22
@[match_pattern] abbrev backslash : UInt8 := 0x5c
@[match_pattern] abbrev slash : UInt8 := 0x2f
@[match_pattern] abbrev comma : UInt8 := 0x2c
@[match_pattern] abbrev colon : UInt8 := 0x3a
@[match_pattern] abbrev openList : UInt8 := 0x5b
@[match_pattern] abbrev closeList : UInt8 := 0x5d
@[match_pattern] abbrev openObject : UInt8 := 0x7b
@[match_pattern] abbrev closeObject : UInt8 := 0x7d
@[match_pattern] abbrev minus : UInt8 := 0x2d
@[match_pattern] abbrev plus : UInt8 := 0x2b
@[match_pattern] abbrev point : UInt8 := 0x2e
@[match_pattern] abbrev zero : UInt8 := 0x30
@[match_pattern] abbrev letterB : UInt8 := 0x62
@[match_pattern] abbrev letterE : UInt8 := 0x65
@[match_pattern] abbrev capitalE : UInt8 := 0x45
@[match_pattern] abbrev letterF : UInt8 := 0x66
@[match_pattern] abbrev letterN : UInt8 := 0x6e
@[match_pattern] abbrev letterR : UInt8 := 0x72
@[match_pattern] abbrev letterT : UInt8 := 0x74
@[match_pattern] abbrev letterU : UInt8 := 0x75

end Octet

/-- A place inside a value: a member of an object or an element of a list. -/
inductive Step
  | member (name : String)
  | element (index : Nat)
  deriving DecidableEq, Repr

/-- A failed reading: its cause, how many octets of the text were still to come, and the place of the
value that was being read.
-/
structure Failure where
  cause : Cause
  left : Nat
  path : List Step
  deriving DecidableEq, Repr

abbrev Reader := StateT Octets (Except Failure)

def fail (cause : Cause) : Reader α := fun rest => .error ⟨cause, rest.length, []⟩

/-- Fails on account of the next octet, which counts as read if there is one. -/
def failNext (cause : Cause) : Reader α := fun rest => .error ⟨cause, rest.length - 1, []⟩

def look : Reader (Option UInt8) := fun rest => .ok (rest.head?, rest)

def advance : Reader Unit := fun rest => .ok ((), rest.tail)

def isSpace (b : UInt8) : Bool := b = 0x20 || b = 0x0a || b = 0x0d || b = 0x09

def skipSpace : Reader Unit := fun rest => .ok ((), rest.dropWhile isSpace)

/-- The next octet after any space, left in place. -/
def token : Reader (Option UInt8) := do
  skipSpace
  look

/-- Reads at a place: a failure inside it is reported there. -/
def within (step : Step) (read : Reader α) : Reader α := fun rest =>
  match read rest with
  | .ok result => .ok result
  | .error failure => .error { failure with path := step :: failure.path }

/-- Reads exactly the given octets. The first wrong one counts as read. -/
def literal : Octets → Reader Unit
  | [] => pure ()
  | wanted :: more => fun rest =>
      match rest with
      | [] => .error ⟨.endInValue, 0, []⟩
      | b :: rest => if b = wanted then literal more rest else .error ⟨.expectedLiteral, rest.length, []⟩

/-- A refused text: the cause, the line and column it was found at, and the place of the value that was
being read.
-/
structure DecodeError where
  cause : Cause
  line : Nat
  column : Nat
  path : List Step
  deriving DecidableEq, Repr

namespace DecodeError

/-- The error of a failed reading of a text. The line counts the newlines among the octets read, the
column the octets read after the last of them.
-/
def of (text : Octets) (failure : Failure) : DecodeError :=
  let read := text.take (text.length - failure.left)
  { cause := failure.cause
    line := 1 + read.count 0x0a
    column := (read.reverse.takeWhile (· != 0x0a)).length
    path := failure.path }

def message (e : DecodeError) : String :=
  s!"{e.cause.message} at line {e.line} column {e.column}"

/-- A path in words: names joined by points, indices in brackets. -/
def pathText : List Step → String
  | [] => ""
  | .member name :: rest => name ++ tailText rest
  | .element index :: rest => s!"[{index}]" ++ tailText rest
where
  /-- The part of a path after its first step. -/
  tailText : List Step → String
    | [] => ""
    | .member name :: rest => "." ++ name ++ tailText rest
    | .element index :: rest => s!"[{index}]" ++ tailText rest

/-- The message with the path of the value in front. -/
def messageWithPath (e : DecodeError) : String :=
  match e.path with
  | [] => e.message
  | path => pathText path ++ ": " ++ e.message

end DecodeError

/-- Reads the end of a text, before which only space may stand. -/
def finish : Reader Unit := do
  match ← token with
  | none => pure ()
  | some _ => failNext .trailingCharacters

def decode (read : Reader α) (text : Octets) : Except DecodeError α :=
  let whole : Reader α := do
    let value ← read
    finish
    pure value
  match whole text with
  | .ok (value, _) => .ok value
  | .error failure => .error (.of text failure)

end PersonRegistry.Json
