/-
Files and folders.

A tree holds the texts of files and the folders around them, by the names on
the way down from its root. A path is looked up part by part: an empty part
and a point stay where they are, two points go up, and nothing lies below a
file or outside the tree.

* `find`: what stands at a path.
* `read`, `write`: the text of a file.
* `filesUnder`: the files below a folder whose names end in a given way.
-/
import SolidityCanvas.Text.Split

namespace SolidityCanvas

/-- What stands at a place of a tree. -/
inductive FileEntry
  | folder
  | file (text : String)
  deriving DecidableEq, Inhabited

/-- Why a path cannot be used. -/
inductive FileFault
  | missing
  | noFolder
  | isFolder
  deriving DecidableEq, Inhabited

/-- The fault in words. -/
def FileFault.message : FileFault → String
  | missing => "no such file or directory"
  | noFolder => "not a directory"
  | isFolder => "is a directory"

/-- Files and folders, by the names on the way down to them. The root is a
folder and has no entry. -/
structure FileTree where
  entries : List (List String × FileEntry) := []
  deriving Inhabited

namespace FileTree

/-- The tree without files. -/
def empty : FileTree := {}

/-- The parts of a path. -/
def parts (path : String) : List String :=
  (Text.splitOnChar '/' path.toList).map String.ofList

/-- What stands at a place. -/
def entry? (t : FileTree) (place : List String) : Option FileEntry :=
  if place.isEmpty then some .folder else t.entries.lookup place

/-- Puts an entry at a place, over what stands there. -/
def put (t : FileTree) (place : List String) (e : FileEntry) : FileTree :=
  ⟨t.entries.filter (·.1 != place) ++ [(place, e)]⟩

/-- The place that some parts lead to from a place. -/
def walk (t : FileTree) (place : List String) : List String → Except FileFault (List String)
  | [] => match t.entry? place with
    | some _ => .ok place
    | none => .error .missing
  | part :: rest =>
    match t.entry? place with
    | none => .error .missing
    | some (.file _) => .error .noFolder
    | some .folder =>
      if part.isEmpty || part == "." then t.walk place rest
      else if part == ".." then
        if place.isEmpty then .error .missing else t.walk place.dropLast rest
      else t.walk (place ++ [part]) rest

/-- The place of a path. Paths from the root of the machine and the empty
path lead nowhere. -/
def place (t : FileTree) (path : String) : Except FileFault (List String) :=
  if path.isEmpty || Text.hasPrefix path "/" then .error .missing
  else t.walk [] (parts path)

/-- What stands at a path. -/
def find (t : FileTree) (path : String) : Except FileFault FileEntry := do
  let place ← t.place path
  match t.entry? place with
  | some e => .ok e
  | none => .error .missing

/-- Whether a folder stands at a path. -/
def isFolder (t : FileTree) (path : String) : Bool :=
  match t.find path with
  | .ok .folder => true
  | _ => false

/-- Whether a file stands at a path. -/
def isFile (t : FileTree) (path : String) : Bool :=
  match t.find path with
  | .ok (.file _) => true
  | _ => false

/-- The text of the file at a path. -/
def read (t : FileTree) (path : String) : Except FileFault String := do
  match ← t.find path with
  | .file text => .ok text
  | .folder => .error .isFolder

/-- Writes the file at a path, which is made if its folder is there. -/
def write (t : FileTree) (path text : String) : Except FileFault FileTree :=
  match t.place path with
  | .ok place =>
    match t.entry? place with
    | some (.file _) => .ok (t.put place (.file text))
    | _ => .error .isFolder
  | .error .missing =>
    if path.isEmpty || Text.hasPrefix path "/" then .error .missing
    else match (parts path).reverse with
      | [] => .error .missing
      | name :: above => do
        let folder ← t.walk [] above.reverse
        match t.entry? folder with
        | some .folder =>
          if name.isEmpty then .error .isFolder
          else .ok (t.put (folder ++ [name]) (.file text))
        | _ => .error .noFolder
  | .error f => .error f

/-- The tree with a folder and the folders around it. -/
def addFolder (t : FileTree) (place : List String) : FileTree :=
  (List.range place.length).foldl (fun t n =>
    let above := place.take (n + 1)
    if (t.entry? above).isSome then t else t.put above .folder) t

/-- The tree with a file and the folders around it; a name that ends in a
slash stands for a folder. -/
def add (t : FileTree) (name text : String) : FileTree :=
  let names := (parts name).filter fun p => !p.isEmpty && p != "."
  if Text.hasSuffix name "/" then t.addFolder names
  else (t.addFolder names.dropLast).put names (.file text)

/-- The tree of some files. -/
def ofList (files : List (String × String)) : FileTree :=
  files.foldl (fun t (name, text) => t.add name text) empty

/-- The path of something below a folder that is reached by a path. -/
def joined (root below : String) : String :=
  if root == "." then below
  else (if Text.hasSuffix root "/" then String.ofList root.toList.dropLast else root) ++
    "/" ++ below

/-- The files below a folder whose names end in `ending`, as paths from it,
sorted. -/
def below (t : FileTree) (place : List String) (ending : String) : List String :=
  Text.sortedDistinct <| t.entries.filterMap fun (p, e) =>
    match e with
    | .file _ =>
      if place.isPrefixOf p && Text.hasSuffix (p.getLast?.getD "") ending then
        some ("/".intercalate (p.drop place.length))
      else none
    | .folder => none

/-- The paths of the files below a folder whose names end in `ending`,
sorted. The empty path is the root. -/
def filesUnder (t : FileTree) (root ending : String) : Except FileFault (List String) :=
  let root := if root.isEmpty then "." else root
  match t.place root with
  | .error f => .error f
  | .ok place =>
    match t.entry? place with
    | some .folder => .ok ((t.below place ending).map (joined root))
    | _ => .error .noFolder

end FileTree

end SolidityCanvas
