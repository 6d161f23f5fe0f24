import PersonRegistry.Text.Utf8

/-! Identifiers of 128 bits, and the four ways to write them: with hyphens, without, in braces, and as a
URN.
-/

namespace PersonRegistry

structure Uuid where
  digits : List (Fin 16)
  length_digits : digits.length = 32
  deriving DecidableEq, Repr

namespace Uuid

def nil : Uuid := ⟨List.replicate 32 0, by decide⟩

instance : Inhabited Uuid := ⟨nil⟩

/-- A digit of a random identifier: the thirteenth tells its version, which is 4, and the seventeenth
starts with the two bits of its variant.
-/
def randomDigit (bits place : Nat) : Fin 16 :=
  if place = 12 then 4
  else if place = 16 then Fin.ofNat 16 (8 + bits / Nat.pow 16 place % 4)
  else Fin.ofNat 16 (bits / Nat.pow 16 place)

def ofRandom (bits : Nat) : Uuid :=
  ⟨(List.range 32).map (randomDigit bits), by simp⟩

/-- A hexadecimal digit as a small letter or digit. -/
def digitChar (d : Fin 16) : Char := Nat.digitChar d.val

/-- The value of a hexadecimal digit of either case. -/
def digit? (c : Char) : Option (Fin 16) :=
  if '0' ≤ c && c ≤ '9' then some (Fin.ofNat 16 (c.toNat - '0'.toNat))
  else if 'a' ≤ c && c ≤ 'f' then some (Fin.ofNat 16 (c.toNat - 'a'.toNat + 10))
  else if 'A' ≤ c && c ≤ 'F' then some (Fin.ofNat 16 (c.toNat - 'A'.toNat + 10))
  else none

def groupLengths : List Nat := [8, 4, 4, 4, 12]

/-- The digits of the groups, with hyphens between them. -/
def hyphenate : List Nat → List Char → List Char
  | [], digits => digits
  | [_], digits => digits
  | size :: sizes, digits => digits.take size ++ '-' :: hyphenate sizes (digits.drop size)

/-- The canonical way to write an identifier: small letters, groups joined by hyphens. -/
def chars (id : Uuid) : List Char :=
  hyphenate groupLengths (id.digits.map digitChar)

def text (id : Uuid) : String := String.ofList id.chars

inductive Flaw
  | length (found : Nat)
  | character (found : Char) (index : Nat)
  | groupCount (found : Nat)
  | groupLength (group expected found : Nat)
  deriving DecidableEq, Repr

def Flaw.message : Flaw → String
  | .length found => s!"invalid length: found {found}"
  | .character found index => s!"invalid character: found `{found}` at {index}"
  | .groupCount found => s!"invalid group count: expected 5, found {found}"
  | .groupLength group expected found =>
      s!"invalid group length in group {group}: expected {expected}, found {found}"

/-- What a text has around the digits and hyphens. -/
structure Unwrapped where
  body : List Char
  /-- How many characters stand in front of the body. -/
  offset : Nat
  bare : Bool

/-- What a URN of an identifier starts with, in small letters. -/
def urnLabel : List Char := ['u', 'r', 'n', ':', 'u', 'u', 'i', 'd', ':']

/-- Takes off a pair of braces or the label of a URN, whatever its case. -/
def unwrap (chars : List Char) : Unwrapped :=
  if chars.head? = some '{' && chars.getLast? = some '}' && 2 ≤ chars.length then
    ⟨(chars.drop 1).dropLast, 1, false⟩
  else if (chars.take urnLabel.length).map Char.toLower = urnLabel then
    ⟨chars.drop urnLabel.length, urnLabel.length, false⟩
  else ⟨chars, 0, true⟩

/-- The first character that is neither a digit nor a hyphen, with the number of octets before it. -/
def strayFrom (index : Nat) : List Char → Option (Char × Nat)
  | [] => none
  | c :: rest =>
      if (digit? c).isSome || c = '-' then strayFrom (index + 1) rest else some (c, index)

def groups : List Char → List (List Char)
  | [] => [[]]
  | c :: rest =>
      if c = '-' then [] :: groups rest
      else
        match groups rest with
        | [] => [[c]]
        | group :: more => (c :: group) :: more

/-- The first group that has not the length it should have. -/
def wrongGroup? : (index : Nat) → List (List Char) → List Nat → Option (Nat × Nat × Nat)
  | index, group :: more, size :: sizes =>
      if group.length = size then wrongGroup? (index + 1) more sizes
      else some (index, size, group.length)
  | _, _, _ => none

/-- The identifier of a list of characters, if they are 32 hexadecimal digits. -/
def ofDigits? (chars : List Char) : Option Uuid :=
  match chars.mapM digit? with
  | none => none
  | some digits => if h : digits.length = 32 then some ⟨digits, h⟩ else none

def octetLength (chars : List Char) : Nat := (Text.Utf8.encode chars).length

/-- Why a text that has the right length for none of the ways to write an identifier, or the right
characters, is refused. The length of the last group is reckoned from the whole text.
-/
def flaw (chars : List Char) : Flaw :=
  let size := octetLength chars
  let unwrapped := unwrap chars
  match strayFrom unwrapped.offset unwrapped.body with
  | some (c, index) => .character c index
  | none =>
      let parts := groups unwrapped.body
      if parts.length = 1 && unwrapped.bare then .length size
      else if parts.length ≠ 5 then .groupCount parts.length
      else
        match wrongGroup? 0 parts groupLengths with
        | some (4, expected, _) => .groupLength 4 expected (size - 24)
        | some (group, expected, found) => .groupLength group expected found
        | none => .groupLength 4 12 (size - 24)

/-- The digits of a text, if they are grouped in one of the four ways. -/
def ungrouped? (chars : List Char) : Option (List Char) :=
  let unwrapped := unwrap chars
  let parts := groups unwrapped.body
  if parts.map List.length = groupLengths then some parts.flatten
  else if unwrapped.bare && parts.map List.length = [32] then some parts.flatten
  else none

def ofChars (chars : List Char) : Except Flaw Uuid :=
  if chars.isEmpty || 45 < octetLength chars then .error (.length (octetLength chars))
  else
    match (ungrouped? chars).bind ofDigits? with
    | some id => .ok id
    | none => .error (flaw chars)

def ofText (text : String) : Except Flaw Uuid := ofChars text.toList

end Uuid
end PersonRegistry
