import PersonRegistry.Settings.Setting
import PersonRegistry.Text.Parts

/-! Tables of settings laid over each other. Names mean the same in either case, and a later source only
replaces the settings it gives.
-/

namespace PersonRegistry.Settings

abbrev Entries := List (String × Setting)

namespace Setting

/-- Puts an entry in its place, instead of one of the same name. -/
def put (name : String) (setting : Setting) : Entries → Entries
  | [] => [(name, setting)]
  | (other, held) :: rest =>
      if other = name then (name, setting) :: rest else (other, held) :: put name setting rest

/-- The entries of a table that is to be added to; anything else gives way to a new table. -/
def entriesOf : Option Setting → Entries
  | some (.table entries) => entries
  | _ => []

mutual

/-- Lays a setting over another one. Tables are joined; anything else replaces what was there. -/
def overlay (held : Option Setting) : Setting → Setting
  | .table entries => .table (overlayAll (entriesOf held) entries)
  | setting => setting

def overlayAll (held : Entries) : Entries → Entries
  | [] => held
  | (name, setting) :: rest =>
      let name := Text.lowercase name
      overlayAll (put name (overlay (held.lookup name) setting) held) rest

end

/-- Lays a setting over what is at a path, making the tables on the way. -/
def overlayAt : List String → Setting → Entries → Entries
  | [], _, held => held
  | [name], setting, held => overlayAll held [(name, setting)]
  | name :: path, setting, held =>
      let name := Text.lowercase name
      put name (.table (overlayAt path setting (entriesOf (held.lookup name)))) held

end Setting

/-- A character that a name on a path may hold. -/
def isPathChar (c : Char) : Bool := c.isAlphanum || c = ' ' || c = '_' || c = '-'

/-- A name as a path: parts joined by points. A name that is no such path stands for itself. -/
def pathOf (name : String) : List String :=
  let parts := Text.partsAt '.' name.toList
  if parts.all fun part => !part.isEmpty && part.all isPathChar then parts.map String.ofList
  else [name]

def layer (held source : Entries) : Entries :=
  source.foldl (fun held entry => Setting.overlayAt (pathOf entry.1) entry.2 held) held

end PersonRegistry.Settings
