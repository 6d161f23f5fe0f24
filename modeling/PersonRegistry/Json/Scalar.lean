import PersonRegistry.Json.Numeral
import PersonRegistry.Json.TextLiteral

/-! Readers of single values: texts, numbers and values that may be null. A value of another kind is read
as far as it is needed to name it.
-/

namespace PersonRegistry.Json

/-- The word for no value, after its first letter. -/
def restOfNull : Text.Octets := [0x75, 0x6c, 0x6c]

def restOfTrue : Text.Octets := [0x72, 0x75, 0x65]

def restOfFalse : Text.Octets := [0x61, 0x6c, 0x73, 0x65]

def Numeral.found : Numeral → Found
  | .whole n => .integer n
  | .float x => .float x

def startsNumeral (b : UInt8) : Bool := b = Octet.minus || isDigit b

/-- Refuses the value that starts with the next octet. Texts, numbers and words are read whole, lists
and objects not at all.
-/
def mismatch (expected : Expected) : Reader α := do
  match ← look with
  | some Octet.letterN =>
      advance
      literal restOfNull
      fail (.invalidType .null expected)
  | some Octet.letterT =>
      advance
      literal restOfTrue
      fail (.invalidType (.boolean true) expected)
  | some Octet.letterF =>
      advance
      literal restOfFalse
      fail (.invalidType (.boolean false) expected)
  | some Octet.quote =>
      advance
      fail (.invalidType (.text (← textBody)) expected)
  | some Octet.openList => fail (.invalidType .list expected)
  | some Octet.openObject => fail (.invalidType .object expected)
  | some b =>
      if startsNumeral b then fail (.invalidType (← numeral b).found expected)
      else failNext .expectedValue
  | none => failNext .expectedValue

/-- The first octet of a value, which must come. -/
def valueStart : Reader UInt8 := do
  match ← token with
  | some b => pure b
  | none => fail .endInValue

def textAs (expected : Expected) (convert : String → Except String α) : Reader α := do
  if (← valueStart) = Octet.quote then
    advance
    match convert (← textBody) with
    | .ok value => pure value
    | .error reason => fail (.refused reason)
  else mismatch expected

def text : Reader String := textAs .text .ok

def numeralAs (expected : Expected) (convert : Numeral → Except Cause α) : Reader α := do
  let b ← valueStart
  if startsNumeral b then
    match convert (← numeral b) with
    | .ok value => pure value
    | .error cause => fail cause
  else mismatch expected

def integer (expected : Expected) (range : Text.IntegerRange) : Reader Int :=
  numeralAs expected fun
    | .whole n => if range.holds n then .ok n else .error (.invalidValue (.integer n) expected)
    | .float x => .error (.invalidType (.float x) expected)

def signed32 : Reader Int32 := Int32.ofInt <$> integer .signed32 .signed32

def unsigned64 : Reader Nat := Int.toNat <$> integer .unsigned64 .unsigned64

/-- Reads a floating-point number; a whole number is rounded to the nearest one. -/
def float : Reader Binary64 :=
  numeralAs .float fun
    | .whole n => .ok ((Binary64.ofInt? n).getD .zero)
    | .float x => .ok x

def orNull (read : Reader α) : Reader (Option α) := do
  match ← token with
  | some Octet.letterN =>
      advance
      literal restOfNull
      pure none
  | _ => some <$> read

end PersonRegistry.Json
