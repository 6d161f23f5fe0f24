/-! The command line: which settings file to use, and what to do. -/

namespace PersonRegistry.CommandLine

inductive Command
  | serve
  /-- Create persons from a queue: the given file, or the standard input. -/
  | worker (input : Option String)
  deriving DecidableEq, Repr

/-- A command and the settings file it is to use. -/
structure Invocation where
  settingsPath : String := "census.toml"
  command : Command := .serve
  deriving DecidableEq, Repr

inductive Error
  | unexpected (argument : String)
  | noValue (option : String)
  | repeated (option : String)
  deriving DecidableEq, Repr

def Error.message : Error → String
  | .unexpected argument => s!"unexpected argument: {argument}"
  | .noValue option => s!"a value is required for {option}"
  | .repeated option => s!"{option} cannot be used multiple times"

structure OptionName where
  long : String
  short : Option Char

def settingsOption : OptionName := ⟨"--config", some 'c'⟩

def inputOption : OptionName := ⟨"--input", none⟩

inductive Mention
  | no
  | next
  | value (text : String)
  deriving DecidableEq, Repr

/-- A value after an option, perhaps behind an equals sign. -/
def attached : List Char → Mention
  | [] => .next
  | '=' :: value => .value (String.ofList value)
  | value => .value (String.ofList value)

def OptionName.mention (name : OptionName) (argument : String) : Mention :=
  let chars := argument.toList
  match name.long.toList.isPrefixOf? chars, name.short, chars with
  | some [], _, _ => .next
  | some ('=' :: value), _, _ => .value (String.ofList value)
  | _, some letter, '-' :: c :: rest => if c = letter then attached rest else .no
  | _, _, _ => .no

/-- A value for an option that has none so far. -/
def setOnce (name : OptionName) (held : Option String) (value : String) :
    Except Error (Option String) :=
  if held.isSome then .error (.repeated name.long) else .ok (some value)

/-- Reads the values of an option off the front of the arguments. -/
def readOption (name : OptionName) :
    Option String → List String → Except Error (Option String × List String)
  | held, [] => .ok (held, [])
  | held, argument :: rest =>
      match name.mention argument, rest with
      | .no, _ => .ok (held, argument :: rest)
      | .value text, rest => do readOption name (← setOnce name held text) rest
      | .next, [] => .error (.noValue name.long)
      | .next, text :: rest => do
          if text.startsWith "-" then .error (.noValue name.long)
          else readOption name (← setOnce name held text) rest

def finished : List String → Except Error Unit
  | [] => .ok ()
  | argument :: _ => .error (.unexpected argument)

/-- Reads the command at the end of the arguments. Without one, the command is to serve. -/
def readCommand : List String → Except Error Command
  | [] => .ok .serve
  | "serve" :: rest => do
      finished rest
      return .serve
  | "worker" :: rest => do
      let (input, rest) ← readOption inputOption none rest
      finished rest
      return .worker input
  | argument :: _ => .error (.unexpected argument)

def parse (arguments : List String) : Except Error Invocation := do
  let (path, rest) ← readOption settingsOption none arguments
  let command ← readCommand rest
  let standard : Invocation := {}
  return { settingsPath := path.getD standard.settingsPath, command }

end PersonRegistry.CommandLine
