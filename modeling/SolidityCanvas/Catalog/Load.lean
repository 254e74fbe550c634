/-
Reading catalogs from files.

A catalog is read from the files whose names end in `.hcl`, in the order of
their names. The first file with a fault decides the error. The standard
catalog is read from the files that come with the library, and a pack adds
the files of a folder to them.
-/
import SolidityCanvas.Catalog.Basic
import SolidityCanvas.Catalog.Standard
import SolidityCanvas.Config.Parser
import SolidityCanvas.FileTree

namespace SolidityCanvas

open Config

/-- Why a catalog cannot be read. -/
inductive CatalogError
  | malformed (file : String)
  | definitions (file : String) (faults : List Fault)
  | inconsistent (faults : List Fault)
  | walk (folder : String) (f : FileFault)
  | unreadable (file : String) (f : FileFault)

namespace CatalogError

/-- The faults behind an error. A file that cannot be parsed has none that are
told apart. -/
def faults : CatalogError → List Fault
  | definitions _ fs | inconsistent fs => fs
  | _ => []

/-- The error in words; `reported` stands for the faults of a place in a file,
and `words` for those of the catalog as a whole. -/
def message (reported : String) (words : List Fault → String) : CatalogError → String
  | malformed file => "failed to parse HCL file " ++ file ++ ": " ++ reported
  | definitions file _ =>
    "failed to process catalog definitions in " ++ file ++ ": " ++ reported
  | inconsistent fs => "invalid catalog: " ++ words fs
  | walk folder f =>
    "failed to walk catalog directory " ++ folder ++ ": stat .: " ++ f.message
  | unreadable file f =>
    "failed to read catalog file " ++ file ++ ": open " ++ file ++ ": " ++ f.message

end CatalogError

namespace Catalog

/-- The ending of the names of catalog files. -/
def fileEnding : String := ".hcl"

/-- The definitions of a file. -/
def readFile (name text : String) : Except CatalogError Definitions :=
  match Body.parse? text with
  | none => .error (.malformed name)
  | some body => (Definitions.read body).mapError (.definitions name)

/-- The definitions of some files, each with the name of its file. A name that
occurs again stands for the text it had first. -/
def readFiles (files : List (String × String)) :
    Except CatalogError (List (String × Definitions)) :=
  files.mapM fun (name, text) => do
    let d ← readFile name ((files.lookup name).getD text)
    return (name, d)

/-- The catalog of some files. -/
def ofFiles (files : List (String × String)) : Except CatalogError Catalog := do
  let defined ← readFiles files
  (build defined).mapError .inconsistent

/-- The files of a tree below a folder, with their paths. -/
def folderFiles (tree : FileTree) (folder : String) :
    Except CatalogError (List (String × String)) := do
  let paths ← (tree.filesUnder folder fileEnding).mapError (.walk folder)
  paths.mapM fun p => do
    let text ← (tree.read p).mapError (.unreadable p)
    return (p, text)

/-- The catalog of all catalog files of a tree. -/
def ofTree (tree : FileTree) : Except CatalogError Catalog := do
  ofFiles (← folderFiles tree ".")

/-- The standard catalog with the files below a folder of a tree added. -/
def withPack (tree : FileTree) (folder : String) : Except CatalogError Catalog := do
  ofFiles (standardFiles ++ (← folderFiles tree folder))

/-- The standard catalog. -/
def standard : Catalog := (ofFiles standardFiles).toOption.getD {}

end Catalog

end SolidityCanvas
