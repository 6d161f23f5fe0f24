/-! Octets and the characters they spell in UTF-8. A sequence falls into pieces: characters, and
stretches that start no character or end inside one.
-/

namespace PersonRegistry.Text

/-- A text as it travels: any sequence of octets. -/
abbrev Octets := List UInt8

namespace Utf8

def encode (chars : List Char) : Octets :=
  chars.flatMap String.utf8EncodeChar

def ofString (text : String) : Octets :=
  encode text.toList

/-- A character of which `width` octets were read: their payload bits, and the ranges in which the
octets to come must lie.
-/
structure Begun where
  code : Nat
  width : Nat
  awaited : List (UInt8 × UInt8)

inductive Reading
  | whole (c : Char)
  | begun (part : Begun)
  | stray

/-- An octet that opens a character. Overlong forms, surrogates and code points beyond the last one
are shut out by the range of the second octet.
-/
def opening (b : UInt8) : Reading :=
  if b < 0x80 then .whole (Char.ofNat b.toNat)
  else if b < 0xc2 then .stray
  else if b < 0xe0 then .begun ⟨b.toNat % 32, 1, [(0x80, 0xbf)]⟩
  else if b = 0xe0 then .begun ⟨0, 1, [(0xa0, 0xbf), (0x80, 0xbf)]⟩
  else if b = 0xed then .begun ⟨13, 1, [(0x80, 0x9f), (0x80, 0xbf)]⟩
  else if b < 0xf0 then .begun ⟨b.toNat % 16, 1, [(0x80, 0xbf), (0x80, 0xbf)]⟩
  else if b = 0xf0 then .begun ⟨0, 1, [(0x90, 0xbf), (0x80, 0xbf), (0x80, 0xbf)]⟩
  else if b < 0xf4 then .begun ⟨b.toNat % 8, 1, [(0x80, 0xbf), (0x80, 0xbf), (0x80, 0xbf)]⟩
  else if b = 0xf4 then .begun ⟨4, 1, [(0x80, 0x8f), (0x80, 0xbf), (0x80, 0xbf)]⟩
  else .stray

def Begun.next (part : Begun) (b : UInt8) : Reading :=
  match part.awaited with
  | [] => .stray
  | (low, high) :: awaited =>
      if low ≤ b && b ≤ high then
        let code := part.code * 64 + b.toNat % 64
        if awaited.isEmpty then .whole (Char.ofNat code)
        else .begun ⟨code, part.width + 1, awaited⟩
      else .stray

/-- A stretch of octets: one character, octets that start no character, or the start of a character
at the very end.
-/
inductive Piece
  | char (c : Char)
  | stray (width : Nat)
  | cut (width : Nat)
  deriving DecidableEq, Repr

/-- The pieces of a sequence of which a character may have begun. An octet that does not go on with
it opens the next piece.
-/
def piecesAfter : Option Begun → Octets → List Piece
  | none, [] => []
  | some part, [] => [.cut part.width]
  | none, b :: rest =>
      match opening b with
      | .whole c => .char c :: piecesAfter none rest
      | .begun part => piecesAfter (some part) rest
      | .stray => .stray 1 :: piecesAfter none rest
  | some part, b :: rest =>
      match part.next b with
      | .whole c => .char c :: piecesAfter none rest
      | .begun longer => piecesAfter (some longer) rest
      | .stray =>
          .stray part.width ::
            match opening b with
            | .whole c => .char c :: piecesAfter none rest
            | .begun other => piecesAfter (some other) rest
            | .stray => .stray 1 :: piecesAfter none rest

def pieces (octets : Octets) : List Piece :=
  piecesAfter none octets

/-- Where a sequence stops being UTF-8: how many octets before it are sound, and how many start no
character, unless the sequence ends too soon.
-/
structure Flaw where
  sound : Nat
  width : Option Nat
  deriving DecidableEq, Repr

/-- The first flaw among pieces that stand behind `sound` octets. -/
def flawAfter : Nat → List Piece → Option Flaw
  | _, [] => none
  | sound, .char c :: rest => flawAfter (sound + c.utf8Size) rest
  | sound, .stray width :: _ => some ⟨sound, some width⟩
  | sound, .cut _ :: _ => some ⟨sound, none⟩

/-- The first flaw of a sequence, if it is not UTF-8. -/
def flaw? (octets : Octets) : Option Flaw :=
  flawAfter 0 (pieces octets)

/-- The character shown for a piece; one that spells none shows as the replacement character. -/
def Piece.shown : Piece → Char
  | .char c => c
  | .stray _ | .cut _ => '\ufffd'

/-- The characters of a sequence, with a replacement character for each flaw. -/
def lossy (octets : Octets) : List Char :=
  (pieces octets).map Piece.shown

/-- The text of a sequence, or its first flaw. -/
def decode (octets : Octets) : Except Flaw String :=
  match flaw? octets with
  | some flaw => .error flaw
  | none => .ok (String.ofList (lossy octets))

def Flaw.message (flaw : Flaw) : String :=
  match flaw.width with
  | some width => s!"invalid utf-8 sequence of {width} bytes from index {flaw.sound}"
  | none => s!"incomplete utf-8 byte sequence from index {flaw.sound}"

end Utf8
end PersonRegistry.Text
