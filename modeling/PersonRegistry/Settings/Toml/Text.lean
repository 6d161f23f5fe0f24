import PersonRegistry.Settings.Toml.Scan

/-! Quoted texts of a settings file: on one line or over several, with escapes or taken as they stand. -/

namespace PersonRegistry.Settings.Toml

/-- Puts a character in front of what is read next. -/
def consText (c : Char) (more : Option (List Char × List Char)) : Option (List Char × List Char) :=
  more.map fun (text, rest) => (c :: text, rest)

def charOfHex? (digits : List Char) : Option Char := do
  let code ← digits.foldlM (fun code c => (baseDigit? 16 c).map (code * 16 + ·)) 0
  if code.isValidChar then some (Char.ofNat code) else none

/-- The character that a letter after a backslash stands for. -/
def escaped? : Char → Option Char
  | 'b' => some '\x08'
  | 't' => some '\t'
  | 'n' => some '\n'
  | 'f' => some '\x0c'
  | 'r' => some '\r'
  | '"' => some '"'
  | '\\' => some '\\'
  | _ => none

/-- Reads a text with escapes up to its quote. -/
def basicText : List Char → Option (List Char × List Char)
  | [] => none
  | '"' :: rest => some ([], rest)
  | '\\' :: 'u' :: a :: b :: c :: d :: rest => do
      let char ← charOfHex? [a, b, c, d]
      consText char (basicText rest)
  | '\\' :: 'U' :: a :: b :: c :: d :: e :: f :: g :: h :: rest => do
      let char ← charOfHex? [a, b, c, d, e, f, g, h]
      consText char (basicText rest)
  | '\\' :: c :: rest => do
      let char ← escaped? c
      consText char (basicText rest)
  | c :: rest => if isPlain c && c ≠ '\\' then consText c (basicText rest) else none

/-- Reads a text without escapes up to its quote. -/
def literalText : List Char → Option (List Char × List Char)
  | [] => none
  | '\x27' :: rest => some ([], rest)
  | c :: rest => if isPlain c then consText c (literalText rest) else none

/-- The quotes at the end of a text over several lines: three of them close it, and up to two before
them belong to it. Gives those and what follows.
-/
def closingQuotes? (quote : Char) : List Char → Option (List Char × List Char)
  | a :: b :: c :: rest =>
      if a = quote && b = quote && c = quote then
        match rest with
        | d :: e :: after =>
            if d = quote && e = quote then some ([quote, quote], after)
            else if d = quote then some ([quote], e :: after)
            else some ([], rest)
        | [d] => if d = quote then some ([quote], []) else some ([], rest)
        | [] => some ([], [])
      else none
  | _ => none

/-- What a reading of a text over several lines is about. -/
inductive BlockPlace
  | content
  /-- After a backslash, looking for the end of the line. -/
  | joining
  /-- After a backslash and the end of its line, passing over spaces and line ends. -/
  | joined
  deriving DecidableEq, Repr

/-- Reads a text with escapes over several lines. A backslash at the end of a line joins it with the next
one that is not empty.
-/
def basicBlock : BlockPlace → List Char → Option (List Char × List Char)
  | _, [] => none
  | .joining, '\n' :: rest => basicBlock .joined rest
  | .joining, '\r' :: '\n' :: rest => basicBlock .joined rest
  | .joining, c :: rest => if isSpace c then basicBlock .joining rest else none
  | .joined, '\n' :: rest => basicBlock .joined rest
  | .joined, '\r' :: '\n' :: rest => basicBlock .joined rest
  | _, '"' :: rest =>
      match closingQuotes? '"' ('"' :: rest) with
      | some closed => some closed
      | none => consText '"' (basicBlock .content rest)
  | _, '\n' :: rest => consText '\n' (basicBlock .content rest)
  | _, '\r' :: '\n' :: rest => consText '\n' (basicBlock .content rest)
  | _, '\\' :: 'u' :: a :: b :: c :: d :: rest => do
      let char ← charOfHex? [a, b, c, d]
      consText char (basicBlock .content rest)
  | _, '\\' :: 'U' :: a :: b :: c :: d :: e :: f :: g :: h :: rest => do
      let char ← charOfHex? [a, b, c, d, e, f, g, h]
      consText char (basicBlock .content rest)
  | _, '\\' :: '\n' :: rest => basicBlock .joined rest
  | _, '\\' :: '\r' :: '\n' :: rest => basicBlock .joined rest
  | _, '\\' :: c :: rest =>
      if isSpace c then basicBlock .joining rest
      else do
        let char ← escaped? c
        consText char (basicBlock .content rest)
  | place, c :: rest =>
      if place = .joined && isSpace c then basicBlock .joined rest
      else if isPlain c && c ≠ '\\' then consText c (basicBlock .content rest)
      else none

def literalBlock : List Char → Option (List Char × List Char)
  | [] => none
  | '\x27' :: rest =>
      match closingQuotes? '\x27' ('\x27' :: rest) with
      | some closed => some closed
      | none => consText '\x27' (literalBlock rest)
  | '\n' :: rest => consText '\n' (literalBlock rest)
  | '\r' :: '\n' :: rest => consText '\n' (literalBlock rest)
  | c :: rest => if isPlain c then consText c (literalBlock rest) else none

/-- What follows the end of a line, if one comes next: the first one in a text over several lines does
not count.
-/
def withoutFirstBreak : List Char → List Char
  | '\n' :: rest => rest
  | '\r' :: '\n' :: rest => rest
  | rest => rest

def lineText : List Char → Option (List Char × List Char)
  | '"' :: rest => basicText rest
  | '\x27' :: rest => literalText rest
  | _ => none

def quotedText : List Char → Option (List Char × List Char)
  | '"' :: '"' :: '"' :: rest => basicBlock .content (withoutFirstBreak rest)
  | '\x27' :: '\x27' :: '\x27' :: rest => literalBlock (withoutFirstBreak rest)
  | rest => lineText rest

end PersonRegistry.Settings.Toml
