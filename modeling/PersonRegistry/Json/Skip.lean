import PersonRegistry.Json.Scalar

/-! Passing over a value that nobody asked for. Its syntax is checked and nothing else: numbers may be
of any size, texts of any octets, and nesting as deep as the text is long.
-/

namespace PersonRegistry.Json

open Text (Octets)

inductive Bracket
  | list
  | object
  deriving DecidableEq, Repr

namespace Bracket

def closing : Bracket → UInt8
  | .list => Octet.closeList
  | .object => Octet.closeObject

/-- What is wrong when the text ends inside the container. -/
def endInside : Bracket → Cause
  | .list => .endInList
  | .object => .endInObject

/-- What is wrong when an element is followed by neither a comma nor the closing octet. -/
def expectedEnd : Bracket → Cause
  | .list => .expectedListEnd
  | .object => .expectedObjectEnd

end Bracket

def skipDigits : Reader Unit := fun rest => .ok ((), rest.dropWhile isDigit)

/-- Passes over an exponent, whose letter is still to come. -/
def skipExponent : Reader Unit := do
  advance
  let _ ← exponentSign
  match ← look with
  | none => fail .invalidNumber
  | some b =>
      advance
      if isDigit b then skipDigits else fail .invalidNumber

def skipOptionalExponent : Reader Unit := do
  match ← look with
  | some Octet.letterE | some Octet.capitalE => skipExponent
  | _ => pure ()

/-- Passes over what may follow the whole part of a number. -/
def skipAfterWhole : Reader Unit := do
  match ← look with
  | some Octet.point =>
      advance
      if startsWithDigit (← get) then
        skipDigits
        skipOptionalExponent
      else failNext .invalidNumber
  | _ => skipOptionalExponent

def skipUnsigned : Reader Unit := do
  match ← look with
  | none => fail .invalidNumber
  | some b =>
      advance
      if b = Octet.zero then
        if startsWithDigit (← get) then failNext .invalidNumber else skipAfterWhole
      else if isDigit b then
        skipDigits
        skipAfterWhole
      else fail .invalidNumber

/-- Passes over the start of a value: all of it, unless it opens a container. -/
def skipStart : Reader (Option Bracket) := do
  let b ← valueStart
  match b with
  | Octet.letterN => advance; literal restOfNull; pure none
  | Octet.letterT => advance; literal restOfTrue; pure none
  | Octet.letterF => advance; literal restOfFalse; pure none
  | Octet.quote => advance; skipText; pure none
  | Octet.minus => advance; skipUnsigned; pure none
  | Octet.openList => advance; pure (some .list)
  | Octet.openObject => advance; pure (some .object)
  | b => if isDigit b then skipUnsigned; pure none else failNext .expectedValue

def colon : Reader Unit := do
  match ← token with
  | some Octet.colon => advance
  | some _ => failNext .expectedColon
  | none => fail .endInObject

def skipKey : Reader Unit := do
  match ← token with
  | some Octet.quote =>
      advance
      skipText
      colon
  | some _ => failNext .keyNotText
  | none => fail .endInObject

/-- Passes over what stands before the next element of a container: the key, in an object. -/
def skipLabel : Bracket → Reader Unit
  | .list => pure ()
  | .object => skipKey

inductive SkipState
  | value
  | opened
  | ended
  deriving DecidableEq, Repr

/-- One step of skipping: the next state and the containers then open, innermost first. -/
def skipStep (state : SkipState) (containers : List Bracket) :
    Reader (SkipState × List Bracket) := do
  match state, containers with
  | .value, _ =>
      match ← skipStart with
      | none => pure (.ended, containers)
      | some bracket => pure (.opened, bracket :: containers)
  | _, [] => pure (.ended, [])
  | state, bracket :: outer =>
      match ← token with
      | none => fail bracket.endInside
      | some b =>
          if b = bracket.closing then
            advance
            pure (.ended, outer)
          else if state = .opened then
            skipLabel bracket
            pure (.value, containers)
          else if b = Octet.comma then
            advance
            skipLabel bracket
            pure (.value, containers)
          else failNext bracket.expectedEnd

/-- Skips until every container is closed. Each value and each closing takes an octet at least, so a
text cannot need more steps than three for each of its octets.
-/
def skipWith : (steps : Nat) → SkipState → List Bracket → Reader Unit
  | 0, _, _ => pure ()
  | steps + 1, state, containers => do
      match ← skipStep state containers with
      | (.ended, []) => pure ()
      | (state, containers) => skipWith steps state containers

def skipValue : Reader Unit := do
  skipWith (3 * (← get).length + 3) .value []

end PersonRegistry.Json
