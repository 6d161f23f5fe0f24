import PersonRegistry.Number.ExtendedReal
import PersonRegistry.Text.Lowercase

/-! Settings as a source gives them: plain values, lists of them and tables by name. A plain value is
taken for what is asked, so a number may be given as a text and a text as a number.
-/

namespace PersonRegistry.Settings

open Text (IntegerRange)

inductive Setting
  | boolean (b : Bool)
  | integer (n : Int)
  | real (x : ExtendedReal)
  | text (s : String)
  | list (items : List Setting)
  | table (entries : List (String × Setting))
  deriving Repr

inductive Error
  /-- The file does not follow the syntax. -/
  | syntaxError
  /-- A value does not fit what is asked for. -/
  | unfit
  /-- A plain value stands in the place of a section. -/
  | noSection
  deriving DecidableEq, Repr

def Error.message : Error → String
  | .syntaxError => "the configuration file does not follow the syntax"
  | .unfit => "a value does not fit the setting it is given for"
  | .noSection => "a plain value stands in the place of a section"

namespace Setting

instance : Inhabited Setting := ⟨.table []⟩

/-- Truth values as texts that are asked for as numbers. -/
def truthNumber? (text : String) : Option Nat :=
  match text with
  | "true" | "on" | "yes" => some 1
  | "false" | "off" | "no" => some 0
  | _ => none

def asText : Setting → Except Error String
  | .text s => .ok s
  | .boolean b => .ok (if b then "true" else "false")
  | .integer n => .ok (String.ofList (Text.decimalInteger n))
  | .real x => .ok (String.ofList x.text)
  | .list _ | .table _ => .error .unfit

/-- The setting as a natural number of 64 bits. -/
def asWord : Setting → Except Error Nat
  | .boolean b => .ok (if b then 1 else 0)
  | .integer n => if 0 ≤ n then .ok n.toNat else .error .unfit
  | .real x => .ok (x.toNat IntegerRange.unsigned64.above)
  | .text s =>
      match truthNumber? (Text.lowercase s) with
      | some n => .ok n
      | none =>
          match Text.readInteger .unsigned64 s.toList with
          | .ok n => .ok n.toNat
          | .error _ => .error .unfit
  | .list _ | .table _ => .error .unfit

/-- The setting as a natural number up to `most`. -/
def asNat (most : Nat) (setting : Setting) : Except Error Nat := do
  let n ← setting.asWord
  if n ≤ most then .ok n else .error .unfit

/-- The members of a section: by name in a table, by place in a list. -/
def members : Setting → Except Error (Nat → String → Option Setting)
  | .table entries => .ok fun _ name => entries.lookup name
  | .list items => .ok fun place _ => items[place]?
  | _ => .error .noSection

end Setting
end PersonRegistry.Settings
