import PersonRegistry.Settings.Toml.Table
import PersonRegistry.Settings.Toml.Text
import PersonRegistry.Settings.Toml.Token

/-! Settings files in the TOML format. A file is a sequence of statements, and these make up a table. -/

namespace PersonRegistry.Settings.Toml

/-- How deep lists and tables in braces may be nested, and how many parts a name may have. -/
def depthLimit : Nat := 79

def isBareChar (c : Char) : Bool := c.isAlphanum || c = '_' || c = '-'

def keyPart : Scan String := fun rest =>
  match lineText rest with
  | some (text, rest) => some (String.ofList text, rest)
  | none =>
      let bare := rest.takeWhile isBareChar
      if bare.isEmpty then none else some (String.ofList bare, rest.dropWhile isBareChar)

/-- Reads a name of at most so many parts. -/
def keyOf : (parts : Nat) → Scan Key
  | 0 => failure
  | parts + 1 => do
      skipSpaces
      let part ← keyPart
      skipSpaces
      if (← look) = some '.' then
        exactly ['.']
        let key ← keyOf parts
        pure { key with parents := part :: key.parents }
      else pure ⟨[], part⟩

/-- Reads a name and the value it is given. -/
def pair (value : Scan Setting) : Scan (Key × Setting) := do
  let key ← keyOf depthLimit
  exactly ['=']
  skipSpaces
  pure (key, ← value)

def tableOf? (pairs : List (Key × Setting)) : Option Setting :=
  (pairs.foldlM (fun entries (pair : Key × Setting) => Nodes.define pair.1 pair.2 entries) []).map
    fun entries => .table (settings entries)

def listOf (item : Scan Setting) : Scan Setting :=
  Setting.list <$> itemsWithin '[' ']' true skipGap item

/-- Reads a table between braces, all on one line. -/
def braced (item : Scan Setting) : Scan Setting := do
  let pairs ← itemsWithin '\x7b' '\x7d' false skipSpaces (pair item)
  (tableOf? pairs : Option Setting)

/-- Reads a value. `item` reads what stands inside a list or a table in braces, where they may stand. -/
def valueWith (item : Option (Scan Setting)) : Scan Setting := do
  match ← look with
  | some '"' | some '\x27' =>
      let text ← (quotedText : Scan (List Char))
      pure (.text (String.ofList text))
  | some '[' => item.elim failure listOf
  | some '\x7b' => item.elim failure braced
  | _ => token

/-- Reads a value in which lists and tables are nested at most so deep. -/
def value : (depth : Nat) → Scan Setting
  | 0 => valueWith none
  | depth + 1 => valueWith (some (value depth))

inductive Statement
  /-- The entries that follow belong to the table of that name. -/
  | table (key : Key)
  /-- The entries that follow belong to a new table in the list of that name. -/
  | item (key : Key)
  | entry (key : Key) (value : Setting)

/-- Reads a statement and the line it ends on. -/
def statement : Scan Statement := do
  if (← get).take 2 = ['[', '['] then
    exactly ['[', '[']
    let key ← keyOf depthLimit
    exactly [']', ']']
    endLine
    pure (.item key)
  else if (← look) = some '[' then
    exactly ['[']
    let key ← keyOf depthLimit
    exactly [']']
    endLine
    pure (.table key)
  else
    let (key, setting) ← pair (value depthLimit)
    endLine
    pure (.entry key setting)

/-- Reads the statements of a file. Lines may hold nothing. `rounds` bounds the number of lines. -/
def statementsWith : (rounds : Nat) → List Char → Option (List Statement)
  | 0, _ => none
  | rounds + 1, chars =>
      match endLine chars with
      | some (_, []) => some []
      | some (_, rest) => statementsWith rounds rest
      | none => do
          let (first, rest) ← statement (chars.dropWhile isSpace)
          let more ← statementsWith rounds rest
          some (first :: more)

/-- Reads the statements of a file, which may start with a byte order mark. -/
def statements? (text : String) : Option (List Statement) :=
  let chars :=
    match text.toList with
    | '\ufeff' :: rest => rest
    | chars => chars
  statementsWith (chars.length + 1) chars

/-- A file while its statements are gone through: the entries, and the table that was opened last. -/
structure Draft where
  entries : Nodes := []
  opened : List String := []

def Draft.add (draft : Draft) : Statement → Option Draft
  | .table key => do
      some ⟨← draft.entries.openTable key, key.parents ++ [key.name]⟩
  | .item key => do
      some ⟨← draft.entries.openItem key, key.parents ++ [key.name]⟩
  | .entry key value => do
      some { draft with entries := ← draft.entries.defineIn draft.opened key value }

def read? (text : String) : Option (List (String × Setting)) := do
  let draft ← (← statements? text).foldlM Draft.add {}
  some (settings draft.entries)

end PersonRegistry.Settings.Toml
