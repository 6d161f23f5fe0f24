/-! Paths that start in the home directory. -/

namespace PersonRegistry.Settings

/-- A path inside a directory. A path from the root stands for itself. -/
def joined (directory path : String) : String :=
  if path.startsWith "/" || directory.isEmpty then path
  else if directory.endsWith "/" then directory ++ path
  else directory ++ "/" ++ path

/-- A path with a leading tilde replaced by the home directory, if that is known. -/
def expandHome (home : Option String) (path : String) : String :=
  match home, ['~', '/'].isPrefixOf? path.toList with
  | some home, some rest => joined home (String.ofList rest)
  | _, _ => path

end PersonRegistry.Settings
