import PersonRegistry.Text.Lowercase
import PersonRegistry.Text.Utf8

/-! Patterns that texts are matched against: any run of characters, any one character, or a given one in
either case of its Latin letter. A pattern for texts with a given start escapes what would be a
wildcard in it.
-/

namespace PersonRegistry.Store

def anyRun : Char := '%'

def anyOne : Char := '_'

/-- The character that makes the one after it stand for itself. -/
def escapeMark : Char := '\\'

/-- A character that stands for itself only behind an escape mark. -/
def isSpecial (c : Char) : Bool := c = escapeMark || c = anyRun || c = anyOne

/-- The form of a name part by which it is searched. -/
def searchKey (part : String) : String := Text.lowercase part

/-- Characters with an escape mark before each one that needs it. -/
def escaped (chars : List Char) : List Char :=
  chars.flatMap fun c => if isSpecial c then [escapeMark, c] else [c]

/-- The pattern of the search keys that start as the key of a given text. -/
def startPattern (start : String) : String :=
  String.ofList (escaped (searchKey start).toList ++ [anyRun])

def patternLimit : Nat := 50000

inductive PatternPart
  | run
  | one
  | letter (c : Char)
  /-- An escape mark with nothing behind it, which matches no text. -/
  | dangling
  deriving DecidableEq, Repr

def patternParts : List Char → List PatternPart
  | [] => []
  | c :: rest =>
      if c = escapeMark then
        match rest with
        | [] => [.dangling]
        | d :: rest => .letter d :: patternParts rest
      else if c = anyRun then .run :: patternParts rest
      else if c = anyOne then .one :: patternParts rest
      else .letter c :: patternParts rest

/-- A text and each of its ends, down to the empty one. -/
def ends : List Char → List (List Char)
  | [] => [[]]
  | c :: rest => (c :: rest) :: ends rest

/-- Two characters are equal but for the case of a Latin letter. -/
def sameLetter (a b : Char) : Bool := a.toLower = b.toLower

def matchesParts : List PatternPart → List Char → Bool
  | [], text => text.isEmpty
  | .dangling :: _, _ => false
  | .letter _ :: _, [] | .one :: _, [] => false
  | .letter c :: parts, d :: text => sameLetter c d && matchesParts parts text
  | .one :: parts, _ :: text => matchesParts parts text
  | .run :: parts, text => (ends text).any (matchesParts parts)

/-- What matching sees of a character: the replacement character for the two code points that are none. -/
def seen (c : Char) : Char :=
  if c.toNat = 0xfffe || c.toNat = 0xffff then '\ufffd' else c

/-- What matching sees of a text: nothing from a null character on. -/
def visiblePart (chars : List Char) : List Char :=
  (chars.takeWhile (· ≠ '\x00')).map seen

def isLike (pattern text : String) : Bool :=
  matchesParts (patternParts (visiblePart pattern.toList)) (visiblePart text.toList)

def isTooLong (pattern : String) : Bool :=
  patternLimit < (Text.Utf8.ofString pattern).length

end PersonRegistry.Store
