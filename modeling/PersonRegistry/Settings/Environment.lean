import PersonRegistry.Settings.Setting

/-! Settings from environment variables: `CENSUS__` and the path of the setting, its parts joined by two
underscores. What looks like a truth value or a number is taken for one.
-/

namespace PersonRegistry.Settings

def variableStart : String := "census__"

/-- The value of a variable: a truth value in either case, else an integer, else a real number, else a
text.
-/
def variableSetting (value : String) : Setting :=
  match Text.lowercase value with
  | "true" => .boolean true
  | "false" => .boolean false
  | _ =>
      match Text.readInteger .signed64 value.toList with
      | .ok n => .integer n
      | .error _ =>
          match ExtendedReal.ofChars? value.toList with
          | some x => .real x
          | none => .text value

def pointed : List Char → List Char
  | '_' :: '_' :: rest => '.' :: pointed rest
  | c :: rest => c :: pointed rest
  | [] => []

/-- The setting that a variable gives, by its name with points. -/
def ofVariable? (name value : String) : Option (String × Setting) :=
  (variableStart.toList.isPrefixOf? (Text.lowercase name).toList).map fun rest =>
    (String.ofList (pointed rest), variableSetting value)

end PersonRegistry.Settings
