/-
The command line.

The files that the command names are read into a tree, the command is carried
out on the tree, and the files that it wrote are put back. Paths lead down
from the working folder. There is no network here, so no server is reached.
-/
import SolidityCanvas.Program

namespace SolidityCanvas.Main

/-- How deep folders of a catalog may lie in one another. -/
def maxDepth : Nat := 64

/-- Something at a path from the working folder. -/
def entryAt (path : String) : IO.FS.DirEntry := ⟨".", path⟩

/-- The tree with the file or folder at a path, if there is one. -/
def addPath (tree : FileTree) (path : String) : IO FileTree := do
  if path.isEmpty then return tree
  if ← (entryAt path).path.isDir then return tree.add (path ++ "/") ""
  try
    return tree.add path (← IO.FS.readFile path)
  catch _ => return tree

/-- The tree with the catalog files below a folder. -/
def addFolder (tree : FileTree) (path : String) : Nat → IO FileTree
  | 0 => return tree
  | depth + 1 => do
    let mut tree := tree.add (path ++ "/") ""
    for e in ← (entryAt path).path.readDir do
      let below := FileTree.joined path e.fileName
      if ← e.path.isDir then tree ← addFolder tree below depth
      else if Text.hasSuffix below Catalog.fileEnding then tree ← addPath tree below
    return tree

/-- The folder that a path lies in. -/
def folderOf (path : String) : String :=
  "/".intercalate (FileTree.parts path).dropLast

/-- The files that a command needs. -/
def gather (command : Command) : IO FileTree := do
  let mut tree := FileTree.empty
  for path in command.filesRead do tree ← addPath tree path
  for path in command.filesWritten do
    tree ← addPath tree (folderOf path)
    tree ← addPath tree path
  match command.shared? with
  | some shared =>
    let folder := shared.catalogFolder
    if !folder.isEmpty && (← (entryAt folder).path.isDir) then addFolder tree folder maxDepth
    else return tree
  | none => return tree

/-- Puts back a file that a command wrote. -/
def putBack (before after : FileTree) (path : String) : IO Unit := do
  match before.read path, after.read path with
  | .ok old, .ok new => if old != new then IO.FS.writeFile path new
  | .error _, .ok new => IO.FS.writeFile path new
  | _, .error _ => return ()

/-- Carries out a command line, and gives the code that it ends with. -/
def run (words : List String) : IO UInt32 := do
  let command := (Command.parse words).toOption.getD .help
  let files ← gather command
  let input ← if command.readsInput then (← IO.getStdin).readToEnd else pure ""
  let session := toString (← IO.rand 0 (UInt64.size - 1))
  let o := Program.run {
    files, input, freshSession := session, reach := fun _ => .error "no network" } words
  (← IO.getStdout).putStr o.output
  (← IO.getStderr).putStr o.notes
  for path in command.filesWritten do putBack files o.files path
  match o.error with
  | none => return 0
  | some e =>
    (← IO.getStderr).putStrLn (e.message {})
    return e.code.toUInt32

end SolidityCanvas.Main

/-- Runs the program. -/
def main (args : List String) : IO UInt32 := SolidityCanvas.Main.run args
