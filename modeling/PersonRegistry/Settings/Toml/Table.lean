import PersonRegistry.Settings.Setting

/-! Tables while a settings file is read. Every name is given once, and a table that has a header of its
own, or was written in braces, takes no more entries from elsewhere.
-/

namespace PersonRegistry.Settings.Toml

inductive Standing
  /-- On the way to the header of another table. -/
  | implied
  | dotted
  | defined
  deriving DecidableEq, Repr

inductive Node
  /-- A value, to which nothing can be added. -/
  | value (v : Setting)
  | table (standing : Standing) (entries : List (String × Node))
  /-- A list of tables, the last of which is still being filled. -/
  | tables (earlier : List Setting) (entries : List (String × Node))

abbrev Nodes := List (String × Node)

mutual

def Node.setting : Node → Setting
  | .value v => v
  | .table _ entries => .table (settings entries)
  | .tables earlier entries => .list (earlier ++ [.table (settings entries)])

/-- What the names of a table stand for in the end. -/
def settings : List (String × Node) → List (String × Setting)
  | [] => []
  | (name, node) :: rest => (name, node.setting) :: settings rest

end

/-- A name in a table that is reached through others. -/
structure Key where
  parents : List String
  name : String
  deriving DecidableEq, Repr

namespace Nodes

/-- Puts an entry in its place, instead of one of the same name. -/
def put (name : String) (node : Node) : Nodes → Nodes
  | [] => [(name, node)]
  | (other, held) :: rest =>
      if other = name then (name, node) :: rest else (other, held) :: put name node rest

/-- Changes the table at a path, making the tables on the way. `standing` is how the outermost table came
about and `made` how a new one does; a path with points passes through no table that has a header.
-/
def changeAt (made : Standing) (change : Standing → Nodes → Option Nodes) :
    (path : List String) → (standing : Standing) → Nodes → Option Nodes
  | [], standing, entries => change standing entries
  | name :: path, _, entries =>
      match entries.lookup name with
      | none => do
          let inner ← changeAt made change path made []
          some (put name (.table made inner) entries)
      | some (.value _) => none
      | some (.table standing inner) =>
          if made = .dotted && standing = .defined then none
          else do
            let inner ← changeAt made change path standing inner
            some (put name (.table standing inner) entries)
      | some (.tables earlier inner) => do
          let inner ← changeAt made change path .defined inner
          some (put name (.tables earlier inner) entries)

/-- Gives a name a value. Where the name has points, the table it ends in must have come about by
points, too.
-/
def define (key : Key) (value : Setting) (entries : Nodes) : Option Nodes :=
  let change (standing : Standing) (entries : Nodes) : Option Nodes :=
    if key.parents ≠ [] && standing ≠ .dotted then none
    else if (entries.lookup key.name).isSome then none
    else some (put key.name (.value value) entries)
  changeAt .dotted change key.parents .defined entries

def openTable (key : Key) (entries : Nodes) : Option Nodes :=
  let change (_ : Standing) (entries : Nodes) : Option Nodes :=
    match entries.lookup key.name with
    | none => some (put key.name (.table .defined []) entries)
    | some (.table .implied inner) => some (put key.name (.table .defined inner) entries)
    | some _ => none
  changeAt .implied change key.parents .defined entries

/-- Adds a table to the list of a header. -/
def openItem (key : Key) (entries : Nodes) : Option Nodes :=
  let change (_ : Standing) (entries : Nodes) : Option Nodes :=
    match entries.lookup key.name with
    | none => some (put key.name (.tables [] []) entries)
    | some (.tables earlier inner) =>
        some (put key.name (.tables (earlier ++ [.table (settings inner)]) []) entries)
    | some _ => none
  changeAt .implied change key.parents .defined entries

/-- Gives a name a value in the table that was opened last. -/
def defineIn (opened : List String) (key : Key) (value : Setting) (entries : Nodes) : Option Nodes :=
  changeAt .implied (fun _ => define key value) opened .defined entries

end Nodes
end PersonRegistry.Settings.Toml
