import PersonRegistry.Text.Casing
import PersonRegistry.Text.LowerRuns

/-! Lower-casing a text of any script. One letter depends on its neighbours: a capital sigma that ends
a word becomes the final sigma.
-/

namespace PersonRegistry.Text

/-- The nearest character that is not case-ignorable is a cased letter. -/
def meetsCased (chars : List Char) : Bool :=
  match chars.dropWhile isCaseIgnorable with
  | [] => false
  | c :: _ => isCased c

/-- A capital sigma ends a word when a cased letter stands before it and none after it; `before` is
read backwards.
-/
def endsWord (before after : List Char) : Bool :=
  meetsCased before && !meetsCased after

/-- The small form of one character in its place. A dotted capital I keeps its dot as a mark of its
own.
-/
def lowerInPlace (before : List Char) (c : Char) (after : List Char) : List Char :=
  if c = 'Σ' then [if endsWord before after then 'ς' else 'σ']
  else if c = 'İ' then ['i', '\u0307']
  else [lowerChar c]

/-- Lower-cases the rest of a text of which `before` was read, last character first. -/
def lowercaseAfter (before : List Char) : List Char → List Char
  | [] => []
  | c :: rest => lowerInPlace before c rest ++ lowercaseAfter (c :: before) rest

def lowercase (text : String) : String :=
  String.ofList (lowercaseAfter [] text.toList)

end PersonRegistry.Text
