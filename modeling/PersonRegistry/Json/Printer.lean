import PersonRegistry.Json.Value

/-! JSON values as text: compact, with the fewest escapes. -/

namespace PersonRegistry.Json

def hexDigit (n : Nat) : Char := Nat.digitChar n

def codeEscapeOf (c : Char) : List Char :=
  ['\\', 'u', '0', '0', hexDigit (c.toNat / 16), hexDigit (c.toNat % 16)]

/-- A character between quotes. Quotes, backslashes and control characters are escaped, all others
stand for themselves.
-/
def printChar (c : Char) : List Char :=
  match c with
  | '"' => ['\\', '"']
  | '\\' => ['\\', '\\']
  | '\x08' => ['\\', 'b']
  | '\x0c' => ['\\', 'f']
  | '\n' => ['\\', 'n']
  | '\r' => ['\\', 'r']
  | '\t' => ['\\', 't']
  | c => if c.toNat < 0x20 then codeEscapeOf c else [c]

def printText (s : String) : List Char :=
  '"' :: (s.toList.flatMap printChar ++ ['"'])

def separated : List (List Char) → List Char
  | [] => []
  | [part] => part
  | part :: rest => part ++ ',' :: separated rest

def printMembers (members : List (String × List Char)) : List Char :=
  '{' :: (separated (members.map fun m => printText m.1 ++ ':' :: m.2) ++ ['}'])

def printElements (values : List (List Char)) : List Char :=
  '[' :: (separated values ++ [']'])

def printNull : List Char := ['n', 'u', 'l', 'l']

def printBoolean : Bool → List Char
  | true => ['t', 'r', 'u', 'e']
  | false => ['f', 'a', 'l', 's', 'e']

def printOption (print : α → List Char) : Option α → List Char
  | some a => print a
  | none => printNull

mutual

def Value.print : Value → List Char
  | .null => printNull
  | .boolean b => printBoolean b
  | .integer n => Text.decimalInteger n
  | .float x => x.text
  | .text s => printText s
  | .list values => printElements (Value.printEach values)
  | .object members => printMembers (Value.printMembersEach members)

def Value.printEach : List Value → List (List Char)
  | [] => []
  | value :: rest => value.print :: Value.printEach rest

def Value.printMembersEach : List (String × Value) → List (String × List Char)
  | [] => []
  | (name, value) :: rest => (name, value.print) :: Value.printMembersEach rest

end

def Value.toText (value : Value) : String :=
  String.ofList value.print

end PersonRegistry.Json
