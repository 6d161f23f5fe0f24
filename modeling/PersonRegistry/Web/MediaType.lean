import PersonRegistry.Web.Token

/-! Media types, as far as they tell whether a body is JSON. -/

namespace PersonRegistry.Web

namespace MediaType

def isQuotedChar (c : Char) : Bool := 0x20 ≤ c.toNat && c.toNat ≠ 0x7f

/-- What follows a quoted value up to the next parameter: blanks, then a semicolon or the end. -/
def afterQuoted? (chars : List Char) : Option (List Char) :=
  match chars.dropWhile (· = ' ') with
  | [] => some []
  | ';' :: rest => some rest
  | _ => none

/-- What follows the value of a parameter, if the value is in order. A value between quotes has at least
one character, which may be a quote; any other may be empty only at the end of the text.
-/
def afterValue? : List Char → Option (List Char)
  | '"' :: first :: chars =>
      if !isQuotedChar first then none
      else
        let value := chars.takeWhile fun c => isQuotedChar c && c ≠ '"'
        match chars.drop value.length with
        | '"' :: rest => afterQuoted? rest
        | _ => none
  | chars =>
      let value := chars.takeWhile isTokenChar
      match chars.drop value.length with
      | [] => some []
      | ';' :: rest => if value = [] then none else some rest
      | _ => none

def parametersWith : (rounds : Nat) → List Char → Bool
  | 0, chars => chars.isEmpty
  | rounds + 1, chars =>
      match chars.dropWhile (· = ' ') with
      | [] => true
      | chars =>
          let name := chars.takeWhile isTokenChar
          match name, chars.drop name.length with
          | _ :: _, '=' :: rest =>
              match afterValue? rest with
              | some rest => parametersWith rounds rest
              | none => false
          | _, _ => false

/-- Parameters are in order: names with values, separated by semicolons. -/
def parametersOk (chars : List Char) : Bool := parametersWith chars.length chars

/-- The part of a subtype before its last plus, unless that comes first, and the part behind it. -/
def splitSuffix (subtype : List Char) : List Char × Option (List Char) :=
  let suffix := (subtype.reverse.takeWhile (· ≠ '+')).reverse
  let base := subtype.take (subtype.length - suffix.length - 1)
  if base = [] || suffix.length = subtype.length then (subtype, none) else (base, some suffix)

def json : List Char := ['j', 's', 'o', 'n']

def application : List Char := ['a', 'p', 'p', 'l', 'i', 'c', 'a', 't', 'i', 'o', 'n']

/-- A text is the media type of JSON, or of a format that is written in JSON. The case of letters does
not count, and parameters do not count as long as they are in order.
-/
def isJson (text : String) : Bool :=
  let chars := text.toList.map Char.toLower
  let type := chars.takeWhile isTokenChar
  match chars.drop type.length with
  | '/' :: rest =>
      let subtype := rest.takeWhile isTokenChar
      let ending :=
        match rest.drop subtype.length with
        | [] => true
        | ';' :: parameters => parametersOk parameters
        | _ => false
      let (base, suffix) := splitSuffix subtype
      type = application && subtype ≠ [] && ending && (base = json || suffix = some json)
  | _ => false

end MediaType
end PersonRegistry.Web
