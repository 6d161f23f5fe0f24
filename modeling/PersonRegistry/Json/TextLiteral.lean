import PersonRegistry.Json.Reader

/-! Texts in JSON texts: the octets between two quotes, with escapes. -/

namespace PersonRegistry.Json

open Text (Octets)

/-- The value of a hexadecimal digit of either case. -/
def hexDigit? (b : UInt8) : Option Nat :=
  if 0x30 ≤ b && b ≤ 0x39 then some (b.toNat - 0x30)
  else if 0x61 ≤ b && b ≤ 0x66 then some (b.toNat - 0x61 + 10)
  else if 0x41 ≤ b && b ≤ 0x46 then some (b.toNat - 0x41 + 10)
  else none

def hexFour? (a b c d : UInt8) : Option Nat := do
  pure ((← hexDigit? a) * 4096 + (← hexDigit? b) * 256 + (← hexDigit? c) * 16 + (← hexDigit? d))

/-- Reads four hexadecimal digits. Four octets count as read when they are no such digits, and all that
is left when there are fewer.
-/
def hexEscape : Octets → Except Failure (Nat × Octets)
  | a :: b :: c :: d :: rest =>
      match hexFour? a b c d with
      | some code => .ok (code, rest)
      | none => .error ⟨.invalidEscape, rest.length, []⟩
  | _ => .error ⟨.endInText, 0, []⟩

/-- The first half of a pair that stands for one character. -/
def isLeading (code : Nat) : Bool := 0xd800 ≤ code && code ≤ 0xdbff

/-- The second half of a pair that stands for one character. -/
def isTrailing (code : Nat) : Bool := 0xdc00 ≤ code && code ≤ 0xdfff

/-- Reads the second half of a pair, with its backslash. -/
def trailingEscape (leading : Nat) : Octets → Except Failure (Char × Octets)
  | Octet.backslash :: Octet.letterU :: rest => do
      let (trailing, rest) ← hexEscape rest
      if isTrailing trailing then
        .ok (Char.ofNat ((leading - 0xd800) * 0x400 + (trailing - 0xdc00) + 0x10000), rest)
      else .error ⟨.loneSurrogate, rest.length, []⟩
  | [] | [Octet.backslash] => .error ⟨.endInText, 0, []⟩
  | Octet.backslash :: _ :: rest => .error ⟨.endInEscape, rest.length, []⟩
  | _ :: rest => .error ⟨.endInEscape, rest.length, []⟩

/-- Reads the character of an escape by code, after its letter. -/
def codeEscape (rest : Octets) : Except Failure (Char × Octets) := do
  let (code, rest) ← hexEscape rest
  if isTrailing code then .error ⟨.loneSurrogate, rest.length, []⟩
  else if isLeading code then trailingEscape code rest
  else .ok (Char.ofNat code, rest)

def shortEscape? : UInt8 → Option Char
  | Octet.quote => some '"'
  | Octet.backslash => some '\\'
  | Octet.slash => some '/'
  | Octet.letterB => some '\x08'
  | Octet.letterF => some '\x0c'
  | Octet.letterN => some '\n'
  | Octet.letterR => some '\r'
  | Octet.letterT => some '\t'
  | _ => none

/-- Reads the character of an escape, after its backslash. -/
def escape : Octets → Except Failure (Char × Octets)
  | [] => .error ⟨.endInText, 0, []⟩
  | Octet.letterU :: rest => codeEscape rest
  | b :: rest =>
      match shortEscape? b with
      | some c => .ok (c, rest)
      | none => .error ⟨.invalidEscape, rest.length, []⟩

/-- Reads up to the closing quote. `gathered` holds the octets spelled so far, last one first, and
`passed` tells how many octets at the front belong to an escape already taken.
-/
def contentsAfter (gathered : Octets) : (passed : Nat) → Octets → Except Failure (Octets × Octets)
  | _, [] => .error ⟨.endInText, 0, []⟩
  | passed + 1, _ :: rest => contentsAfter gathered passed rest
  | 0, b :: rest =>
      if b = Octet.quote then .ok (gathered.reverse, rest)
      else if b = Octet.backslash then
        match escape rest with
        | .error failure => .error failure
        | .ok (c, after) =>
            contentsAfter ((String.utf8EncodeChar c).reverse ++ gathered)
              (rest.length - after.length) rest
      else if b < 0x20 then .error ⟨.controlCharacter, rest.length, []⟩
      else contentsAfter (b :: gathered) 0 rest

/-- Reads a text after its opening quote. Its octets must be UTF-8; if they are not, the octets from the
flaw on count as unread, reckoned from behind the closing quote.
-/
def textBody : Reader String := fun rest =>
  match contentsAfter [] 0 rest with
  | .error failure => .error failure
  | .ok (octets, rest) =>
      match Text.Utf8.decode octets with
      | .ok text => .ok (text, rest)
      | .error flaw => .error ⟨.invalidCodePoint, rest.length + (octets.length - flaw.sound), []⟩

/-- Passes over an escape, after its backslash. Its code may be any. -/
def skipEscape : Octets → Except Failure Octets
  | [] => .error ⟨.endInText, 0, []⟩
  | Octet.letterU :: rest => (hexEscape rest).map (·.2)
  | b :: rest =>
      if (shortEscape? b).isSome then .ok rest else .error ⟨.invalidEscape, rest.length, []⟩

/-- Passes over a text after its opening quote. A control character is refused before it counts as
read.
-/
def skipContents : (passed : Nat) → Octets → Except Failure (Unit × Octets)
  | _, [] => .error ⟨.endInText, 0, []⟩
  | passed + 1, _ :: rest => skipContents passed rest
  | 0, b :: rest =>
      if b = Octet.quote then .ok ((), rest)
      else if b = Octet.backslash then
        match skipEscape rest with
        | .error failure => .error failure
        | .ok after => skipContents (rest.length - after.length) rest
      else if b < 0x20 then .error ⟨.controlCharacter, rest.length + 1, []⟩
      else skipContents 0 rest

def skipText : Reader Unit := skipContents 0

end PersonRegistry.Json
