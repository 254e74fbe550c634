/-
Catalogs of files that are given by their lines.

What a file holds is decided by its characters.  A line that is written out
shows them (`Spelled`), and those of an ASCII line are its bytes
(`spelled_lineChars`).  So the catalog of such files can be computed from the
characters (`ofFiles_spelled`), without putting the lines together to a text and
decoding it, and it can be checked by a computation (`exists_ofFiles_spelled`,
`exists_ofFiles`).
-/
import SolidityCanvas.Catalog.Load
import SolidityCanvas.Proofs.Basic
import SolidityCanvas.Proofs.Text.Bytes

namespace SolidityCanvas

open Config

/-- What the characters of a file hold. -/
def Config.Body.ofChars? (cs : List Char) : Option Body := do
  let cs := withoutMark cs
  let ts ← lexFrom? cs.length [.code 0] cs
  let (attributes, blocks, _) ← Parser.bodyItems (Parser.fuelFor ts) false [] [] ts
  return ⟨attributes, blocks⟩

namespace Catalog

/-- Lines and their characters, with the ends of the lines. -/
inductive Spelled : List String → List Char → Prop
  | nil : Spelled [] []
  | cons (cs : List Char) {lines : List String} {rest : List Char} (h : Spelled lines rest) :
      Spelled (String.ofList cs :: lines) (cs ++ '\n' :: rest)

/-- Files with their lines, and the same files with their characters. -/
inductive SpelledFiles : List (String × List String) → List (String × List Char) → Prop
  | nil : SpelledFiles [] []
  | cons (name : String) {lines : List String} {cs : List Char}
      {files : List (String × List String)} {rest : List (String × List Char)}
      (h : Spelled lines cs) (hrest : SpelledFiles files rest) :
      SpelledFiles ((name, lines) :: files) ((name, cs) :: rest)

theorem Spelled.toList_textOfLines {lines : List String} {cs : List Char} (h : Spelled lines cs) :
    (textOfLines lines).toList = cs := by
  rw [textOfLines, String.toList_join, List.flatMap_map]
  induction h with
  | nil => rfl
  | cons cs _ ih =>
    rw [List.flatMap_cons, ih, String.toList_append, String.toList_ofList, List.append_assoc]
    rfl

/-- The characters of some lines of one byte a character. -/
def lineChars (lines : List String) : List Char :=
  lines.flatMap fun l => Text.asciiChars l ++ ['\n']

theorem spelled_lineChars {lines : List String} (h : lines.all Text.isAscii = true) :
    Spelled lines (lineChars lines) := by
  induction lines with
  | nil => exact .nil
  | cons l lines ih =>
    rw [List.all_cons, Bool.and_eq_true] at h
    have hl : String.ofList (Text.asciiChars l) = l := by
      rw [← Text.toList_eq_asciiChars h.1, String.ofList_toList]
    have hcons := Spelled.cons (Text.asciiChars l) (ih h.2)
    rw [hl] at hcons
    rwa [lineChars, List.flatMap_cons, List.append_assoc]

theorem spelledFiles_lineChars {files : List (String × List String)}
    (h : files.all (fun f => f.2.all Text.isAscii) = true) :
    SpelledFiles files (files.map fun f => (f.1, lineChars f.2)) := by
  induction files with
  | nil => exact .nil
  | cons f files ih =>
    rw [List.all_cons, Bool.and_eq_true] at h
    exact .cons f.1 (spelled_lineChars h.1) (ih h.2)

theorem SpelledFiles.append {files more : List (String × List String)}
    {spelled spelled' : List (String × List Char)} (h : SpelledFiles files spelled)
    (hmore : SpelledFiles more spelled') : SpelledFiles (files ++ more) (spelled ++ spelled') := by
  induction h with
  | nil => exact hmore
  | cons name h _ ih => exact .cons name h ih

/-- The definitions of a file with some characters. -/
def readChars (name : String) (cs : List Char) : Except CatalogError Definitions :=
  match Body.ofChars? cs with
  | none => .error (.malformed name)
  | some body => (Definitions.read body).mapError (.definitions name)

theorem readFile_eq (name text : String) : readFile name text = readChars name text.toList := rfl

/-- The catalog of files with some characters. -/
def ofChars (files : List (String × List Char)) : Except CatalogError Catalog := do
  let defined ← files.mapM fun (name, cs) => do
    let d ← readChars name cs
    return (name, d)
  (build defined).mapError .inconsistent

/-- Files with different names are read one by one. -/
theorem readFiles_of_nodup {files : List (String × String)} (hnames : (files.map (·.1)).Nodup) :
    readFiles files = files.mapM fun (name, text) => do
      let d ← readFile name text
      return (name, d) := by
  rw [readFiles]
  refine mapM_congr fun (name, text) hfile => ?_
  dsimp only
  rw [lookup_of_mem hnames hfile, Option.getD_some]

/-- **The catalog of some files, by their characters.** -/
theorem ofFiles_spelled {files : List (String × List String)} {spelled : List (String × List Char)}
    (h : SpelledFiles files spelled) (hnames : (files.map (·.1)).Nodup) :
    ofFiles (files.map fun f => (f.1, textOfLines f.2)) = ofChars spelled := by
  have hread : ((files.map fun f => (f.1, textOfLines f.2)).mapM fun (name, text) => do
      let d ← readFile name text
      return (name, d)) = spelled.mapM fun (name, cs) => do
        let d ← readChars name cs
        return (name, d) := by
    induction h with
    | nil => rfl
    | cons name h _ ih =>
      rw [List.map_cons, List.mapM_cons, List.mapM_cons, ih (List.nodup_cons.mp hnames).2]
      dsimp only
      rw [readFile_eq, h.toList_textOfLines]
  rw [ofFiles, readFiles_of_nodup (by rwa [List.map_map]), hread]
  rfl

/-- Whether some files make a catalog that passes a check. -/
def checkChars (files : List (String × List Char)) (check : Catalog → Bool) : Bool :=
  match ofChars files with
  | .ok c => check c
  | .error _ => false

/-- **Files that pass a check make a catalog that passes it.** -/
theorem exists_ofFiles_spelled {files : List (String × List String)}
    {spelled : List (String × List Char)} (check : Catalog → Bool) (h : SpelledFiles files spelled)
    (hnames : (files.map (·.1)).Nodup) (hcheck : checkChars spelled check = true) :
    ∃ c, ofFiles (files.map fun f => (f.1, textOfLines f.2)) = .ok c ∧ check c = true := by
  rw [ofFiles_spelled h hnames]
  rw [checkChars] at hcheck
  cases hc : ofChars spelled with
  | error e =>
    rw [hc] at hcheck
    exact absurd hcheck (by simp)
  | ok c =>
    rw [hc] at hcheck
    exact ⟨c, rfl, hcheck⟩

/-- Whether some ASCII files make a catalog that passes a check. -/
def checkLines (files : List (String × List String)) (check : Catalog → Bool) : Bool :=
  files.all (fun f => f.2.all Text.isAscii) &&
    checkChars (files.map fun f => (f.1, lineChars f.2)) check

theorem exists_ofFiles (files : List (String × List String)) (check : Catalog → Bool)
    (hnames : (files.map (·.1)).Nodup) (h : checkLines files check = true) :
    ∃ c, ofFiles (files.map fun f => (f.1, textOfLines f.2)) = .ok c ∧ check c = true := by
  rw [checkLines, Bool.and_eq_true] at h
  exact exists_ofFiles_spelled check (spelledFiles_lineChars h.1) hnames h.2

end Catalog

end SolidityCanvas
