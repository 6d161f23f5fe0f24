/-! Scanning a settings file from the front. A scan that fails says nothing more, for a file with a flaw
is refused as a whole.
-/

namespace PersonRegistry.Settings.Toml

abbrev Scan := StateT (List Char) Option

/-- Passes over the given characters, which must come next. -/
def exactly (chars : List Char) : Scan Unit := fun rest => (chars.isPrefixOf? rest).map ((), ·)

def look : Scan (Option Char) := fun rest => some (rest.head?, rest)

def isSpace (c : Char) : Bool := c = ' ' || c = '\t'

/-- A character that a comment may hold: a tab, or anything that is no control character of ASCII. -/
def isPlain (c : Char) : Bool := c = '\t' || (' ' ≤ c && c ≠ '\x7f')

/-- The value of a digit of a base up to sixteen. -/
def baseDigit? (base : Nat) (c : Char) : Option Nat :=
  let value :=
    if '0' ≤ c && c ≤ '9' then c.toNat - '0'.toNat
    else if 'a' ≤ c && c ≤ 'f' then c.toNat - 'a'.toNat + 10
    else if 'A' ≤ c && c ≤ 'F' then c.toNat - 'A'.toNat + 10
    else 16
  if value < base then some value else none

def skipSpaces : Scan Unit := fun rest => some ((), rest.dropWhile isSpace)

/-- What follows the end of a line, which may be the end of the text. -/
def afterLine? : List Char → Option (List Char)
  | [] => some []
  | '\n' :: rest => some rest
  | '\r' :: '\n' :: rest => some rest
  | _ => none

def skipComment : Scan Unit := fun rest =>
  match rest with
  | '#' :: rest => some ((), rest.dropWhile isPlain)
  | rest => some ((), rest)

/-- Passes over the rest of a line, which may only hold spaces and a comment. -/
def endLine : Scan Unit := do
  skipSpaces
  skipComment
  fun rest => (afterLine? rest).map ((), ·)

def dropGap (inComment : Bool) : List Char → List Char
  | [] => []
  | '\n' :: rest => dropGap false rest
  | '\r' :: '\n' :: rest => dropGap false rest
  | c :: rest =>
      if inComment then (if isPlain c then dropGap true rest else c :: rest)
      else if isSpace c then dropGap false rest
      else if c = '#' then dropGap true rest
      else c :: rest

def skipGap : Scan Unit := fun rest => some ((), dropGap false rest)

/-- Reads items between commas, with `close` after the last one. A comma may stand before it only where
`trailing` says so. `rounds` bounds how many there can be.
-/
def itemsUpTo (close : Char) (trailing : Bool) (gap : Scan Unit) (item : Scan α) :
    (rounds : Nat) → Scan (List α)
  | 0 => failure
  | rounds + 1 => do
      let first ← item
      gap
      match ← look with
      | some ',' =>
          exactly [',']
          gap
          if trailing && (← look) = some close then
            exactly [close]
            pure [first]
          else
            let more ← itemsUpTo close trailing gap item rounds
            pure (first :: more)
      | _ =>
          exactly [close]
          pure [first]

def itemsWithin (opening close : Char) (trailing : Bool) (gap : Scan Unit) (item : Scan α) :
    Scan (List α) := do
  exactly [opening]
  gap
  if (← look) = some close then
    exactly [close]
    pure []
  else itemsUpTo close trailing gap item (← get).length

end PersonRegistry.Settings.Toml
