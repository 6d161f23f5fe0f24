import PersonRegistry.Number.Shortest
import PersonRegistry.Text.IntegerText
import PersonRegistry.Text.Quoted

/-! Why a JSON text is refused: its syntax fails, it ends too soon, or it spells a value of a shape that
was not asked for.
-/

namespace PersonRegistry.Json

inductive Found
  | null
  | boolean (b : Bool)
  | integer (n : Int)
  | float (x : Binary64)
  | text (s : String)
  | list
  | object
  deriving DecidableEq, Repr

def Found.describe : Found → String
  | .null => "null"
  | .boolean b => s!"boolean `{b}`"
  | .integer n => s!"integer `{String.ofList (Text.decimalInteger n)}`"
  | .float x => s!"floating point `{String.ofList x.text}`"
  | .text s => s!"string {Text.quoted s}"
  | .list => "sequence"
  | .object => "map"

inductive Expected
  | text
  | signed32
  | unsigned64
  | float
  | list
  | uuid
  | record (title : String)
  | recordOf (title : String) (size : Nat)
  deriving DecidableEq, Repr

def Expected.describe : Expected → String
  | .text => "a string"
  | .signed32 => "i32"
  | .unsigned64 => "u64"
  | .float => "f64"
  | .list => "a sequence"
  | .uuid => "a formatted UUID string"
  | .record title => s!"struct {title}"
  | .recordOf title 1 => s!"struct {title} with 1 element"
  | .recordOf title size => s!"struct {title} with {size} elements"

inductive Cause
  | endInValue
  | endInText
  | endInList
  | endInObject
  | expectedValue
  | expectedLiteral
  | expectedColon
  | expectedListEnd
  | expectedObjectEnd
  | keyNotText
  | trailingComma
  | trailingCharacters
  | invalidNumber
  | numberOutOfRange
  | invalidEscape
  | controlCharacter
  | loneSurrogate
  | endInEscape
  | invalidCodePoint
  | nestedTooDeep
  | invalidType (found : Found) (expected : Expected)
  | invalidValue (found : Found) (expected : Expected)
  | invalidLength (size : Nat) (expected : Expected)
  | missingField (name : String)
  | duplicateField (name : String)
  | unknownField (name : String) (known : List String)
  | refused (reason : String)
  deriving DecidableEq, Repr

namespace Cause

/-- The text is JSON so far, but not of the shape asked for. -/
def isMismatch : Cause → Bool
  | .invalidType .. | .invalidValue .. | .invalidLength .. => true
  | .missingField .. | .duplicateField .. | .unknownField .. | .refused .. => true
  | _ => false

def listNames : List String → String
  | [] => "there are no fields"
  | [a] => s!"expected `{a}`"
  | [a, b] => s!"expected `{a}` or `{b}`"
  | names => "expected one of " ++ String.intercalate ", " (names.map (fun name => s!"`{name}`"))

def message : Cause → String
  | .endInValue => "EOF while parsing a value"
  | .endInText => "EOF while parsing a string"
  | .endInList => "EOF while parsing a list"
  | .endInObject => "EOF while parsing an object"
  | .expectedValue => "expected value"
  | .expectedLiteral => "expected ident"
  | .expectedColon => "expected `:`"
  | .expectedListEnd => "expected `,` or `]`"
  | .expectedObjectEnd => "expected `,` or `\x7d`"
  | .keyNotText => "key must be a string"
  | .trailingComma => "trailing comma"
  | .trailingCharacters => "trailing characters"
  | .invalidNumber => "invalid number"
  | .numberOutOfRange => "number out of range"
  | .invalidEscape => "invalid escape"
  | .controlCharacter => "control character (\\u0000-\\u001F) found while parsing a string"
  | .loneSurrogate => "lone leading surrogate in hex escape"
  | .endInEscape => "unexpected end of hex escape"
  | .invalidCodePoint => "invalid unicode code point"
  | .nestedTooDeep => "recursion limit exceeded"
  | .invalidType found expected =>
      "invalid type: " ++ found.describe ++ ", expected " ++ expected.describe
  | .invalidValue found expected =>
      "invalid value: " ++ found.describe ++ ", expected " ++ expected.describe
  | .invalidLength size expected => s!"invalid length {size}, expected " ++ expected.describe
  | .missingField name => s!"missing field `{name}`"
  | .duplicateField name => s!"duplicate field `{name}`"
  | .unknownField name known => s!"unknown field `{name}`, " ++ listNames known
  | .refused reason => reason

end Cause
end PersonRegistry.Json
