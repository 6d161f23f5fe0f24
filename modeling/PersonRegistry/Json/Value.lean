import PersonRegistry.Json.Record

/-! JSON values of any shape. Objects hold their members in ascending order of their names, each name
once.
-/

namespace PersonRegistry.Json

inductive Value
  | null
  | boolean (b : Bool)
  | integer (n : Int)
  | float (x : Binary64)
  | text (s : String)
  | list (values : List Value)
  | object (members : List (String × Value))
  deriving Repr

namespace Value

instance : Inhabited Value := ⟨.null⟩

/-- Puts a member in its place, instead of one of the same name. -/
def put (name : String) (value : Value) : List (String × Value) → List (String × Value)
  | [] => [(name, value)]
  | (other, held) :: rest =>
      if name = other then (name, value) :: rest
      else if name < other then (name, value) :: (other, held) :: rest
      else (other, held) :: put name value rest

/-- An object of the given members; of two with one name the later one counts. -/
def ofMembers (members : List (String × Value)) : Value :=
  .object (members.foldl (fun held member => put member.1 member.2 held) [])

def ofText? : Option String → Value
  | some s => .text s
  | none => .null

def ofInteger? : Option Int → Value
  | some n => .integer n
  | none => .null

def member? (name : String) : Value → Option Value
  | .object members => (members.find? (·.1 == name)).map (·.2)
  | _ => none

end Value

def depthLimit : Nat := 127

def Numeral.value : Numeral → Value
  | .whole n => .integer n
  | .float x => .float x

/-- Reads a value that is neither a list nor an object and starts with the given octet. -/
def plainValue (b : UInt8) : Reader Value := do
  match b with
  | Octet.letterN => advance; literal restOfNull; pure .null
  | Octet.letterT => advance; literal restOfTrue; pure (.boolean true)
  | Octet.letterF => advance; literal restOfFalse; pure (.boolean false)
  | Octet.quote => advance; Value.text <$> textBody
  | b => if startsNumeral b then Numeral.value <$> numeral b else failNext .expectedValue

mutual

/-- Reads a value in which lists and objects are nested at most `depth` deep. `rounds` bounds the
length of the text.
-/
def valueWith : (rounds depth : Nat) → Reader Value
  | 0, _ => fail .expectedValue
  | rounds + 1, depth => do
      let b ← valueStart
      match b, depth with
      | Octet.openList, 0 | Octet.openObject, 0 => failNext .nestedTooDeep
      | Octet.openList, depth + 1 =>
          advance
          let values ← elementValues rounds depth true
          advance
          pure (.list values)
      | Octet.openObject, depth + 1 =>
          advance
          let members ← memberValues rounds depth true
          advance
          pure (.ofMembers members)
      | b, _ => plainValue b

/-- Reads the elements of a list up to its bracket. -/
def elementValues : (rounds depth : Nat) → (first : Bool) → Reader (List Value)
  | 0, _, _ => pure []
  | rounds + 1, depth, first => do
      if ← Layout.nextElement first then
        let value ← valueWith rounds depth
        let more ← elementValues rounds depth false
        pure (value :: more)
      else pure []

/-- Reads the members of an object up to its brace. -/
def memberValues : (rounds depth : Nat) → (first : Bool) → Reader (List (String × Value))
  | 0, _, _ => pure []
  | rounds + 1, depth, first => do
      if ← Layout.nextKey first then
        advance
        let name ← textBody
        colon
        let value ← valueWith rounds depth
        let more ← memberValues rounds depth false
        pure ((name, value) :: more)
      else pure []

end

/-- Reads a value of any shape. Each list, object and element takes an octet at least, so twice the
length of the text is enough rounds.
-/
def value : Reader Value := do
  valueWith (2 * (← get).length + 2) depthLimit

end PersonRegistry.Json
