import PersonRegistry.Text.Utf8

/-! Header fields of web messages. -/

namespace PersonRegistry.Web

open Text (Octets)

/-- A header field. Names mean the same in either case. -/
structure Header where
  name : String
  value : Octets
  deriving DecidableEq, Repr

namespace Header

def ofText (name value : String) : Header := ⟨name, Text.Utf8.ofString value⟩

/-- A header field has a name, whatever the case of its letters. -/
def isNamed (name : String) (header : Header) : Bool :=
  header.name.toLower == name.toLower

/-- The value of the first field of a name. -/
def first? (name : String) (headers : List Header) : Option Octets :=
  (headers.find? (isNamed name)).map (·.value)

/-- An octet that a value may hold to be read as text: visible, a space or a tab. -/
def isPlain (b : UInt8) : Bool := (0x20 ≤ b && b < 0x7f) || b = 0x09

/-- A value as text, if it holds nothing else. -/
def plainText? (value : Octets) : Option String :=
  if value.all isPlain then some (String.ofList (Text.Utf8.lossy value)) else none

/-- The text of the first field of a name. -/
def firstText? (name : String) (headers : List Header) : Option String :=
  (first? name headers).bind plainText?

end Header
end PersonRegistry.Web
