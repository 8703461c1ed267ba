import StyleTemplate.Command

/-! The program: it takes the files of the current directory as they are, runs a command line on
them, prints what it comes to, and writes the files that it changed. -/

namespace StyleTemplate.Main

/-- The names of an absolute path. -/
def locationOf (path : String) : Location := (path.splitOn "/").filter (!Path.isIdle ·)

/-- Puts a directory and everything below it into a tree. Files that are no text are left out. -/
partial def load (tree : FileTree) (path : String) : IO FileTree := do
  let mut tree := tree.put (locationOf path) .directory
  let root ← IO.FS.realPath path
  for entry in ← root.readDir do
    let name := path ++ "/" ++ entry.fileName
    if ← entry.path.isDir then
      tree ← load tree name
    else
      try
        let content ← IO.FS.readFile entry.path
        tree := tree.put (locationOf name) (.file content)
      catch _ => pure ()
  return tree

/-- The settings of the user, if there are any. -/
def userSettings : IO (Option String) := do
  let base ← match ← IO.getEnv "XDG_CONFIG_HOME" with
    | some dir => pure (some dir)
    | none => pure ((← IO.getEnv "HOME").map (· ++ "/.config"))
  match base with
  | none => return none
  | some dir =>
    try
      return some (← IO.FS.readFile (dir ++ "/dcss/dcss.toml"))
    catch _ => return none

/-- Writes the files that are new or have changed. -/
def store (before after : FileTree) : IO Unit := do
  for (location, node) in after.nodes do
    if before.node? location ≠ some node then
      let path := "/" ++ "/".intercalate location
      match node with
      | .directory => IO.FS.createDirAll path
      | .file content => IO.FS.writeFile path content

end StyleTemplate.Main

open StyleTemplate in
/-- Runs the words of the command line in the current directory. -/
def main (words : List String) : IO UInt32 := do
  let root := (← IO.currentDir).toString
  let files ← Main.load (FileTree.empty.putParents (Main.locationOf root)) root
  let outcome := runCommandLine words ⟨⟨root⟩, files, ← Main.userSettings⟩
  IO.print outcome.output
  for line in outcome.errorLines do
    IO.eprintln line
  Main.store files outcome.files
  return outcome.exitCode.toUInt32
