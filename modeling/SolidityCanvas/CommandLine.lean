/-
The commands of the program.

* `compile` writes the contract of a canvas.
* `serve` compiles for editors.
* `submit` asks a server to compile.
* `catalog` lists the templates.

`Command.parse` reads a command line. The command is the first word that is
neither an option nor the value of one.
-/
import SolidityCanvas.CommandLine.Option

namespace SolidityCanvas

namespace CommandLine

/-- The name of the program. -/
def programName : String := "contractgrid"

/-- The names of the commands, and of those that tell about them. -/
def commandNames : List String := ["compile", "serve", "submit", "catalog"]

/-- The names of the commands that tell about the others. -/
def helpNames : List String := ["help", "completion"]

/-! ### Options -/

/-- The options of every command. -/
def sharedForms : List OptionForm := [
  { name := "log-level" }, { name := "log-format" }, { name := "catalog-dir" },
  { name := "cache-size", kind := .number },
  { name := "help", kind := .truth, letter := some 'h' }]

/-- The options that say where a contract goes. -/
def outputForms : List OptionForm := [
  { name := "out", letter := some 'o' }, { name := "abi" }, { name := "format" }]

/-- The options of a command. -/
def formsOf (command : String) : List OptionForm :=
  sharedForms ++ match command with
    | "compile" => { name := "project" } :: outputForms
    | "serve" => [{ name := "listen" }, { name := "healthcheck-port", kind := .number },
        { name := "project" }]
    | "submit" => [{ name := "url" }, { name := "session" }, { name := "project" },
        { name := "timeout", kind := .duration }, { name := "transport" },
        { name := "insecure", kind := .truth }] ++ outputForms
    | "catalog" => [{ name := "format" }]
    | _ => []

/-! ### Finding the command -/

/-- Whether a word is an option whose value is the next word. -/
def takesNext (word : String) : Bool :=
  (Text.hasPrefix word "--" || (Text.hasPrefix word "-" && word.utf8ByteSize == 2)) &&
    !word.toList.contains '='

/-- The words that are neither options nor values of options. An option among
the last two words takes everything that is left. -/
def plainWords : List String → List String
  | [] => []
  | word :: rest =>
    if word == "--" then []
    else if takesNext word then
      match rest with
      | _ :: next :: more => plainWords (next :: more)
      | _ => []
    else if word.isEmpty || Text.hasPrefix word "-" then plainWords rest
    else word :: plainWords rest

/-- The words without the first that is the given one and no value of an
option. -/
def without (given : String) : List String → List String
  | [] => []
  | word :: rest =>
    if word == "--" then word :: rest
    else if takesNext word then
      match rest with
      | value :: more => word :: value :: without given more
      | [] => [word]
    else if !Text.hasPrefix word "-" && word == given then rest
    else word :: without given rest

/-- One row of the table of distances between the starts of two texts. -/
def distanceRow (a : UInt8) (diagonal left : Nat) : List UInt8 → List Nat → List Nat
  | b :: bs, above :: more =>
    let d := min (min (above + 1) (left + 1)) (if a == b then diagonal else diagonal + 1)
    d :: distanceRow a above d bs more
  | _, _ => []

/-- How many bytes have to be added, dropped or replaced to make one text of
another. -/
def editDistance (s t : List UInt8) : Nat :=
  let start := List.range (t.length + 1)
  let last := s.foldl (fun row a =>
    let left := row.headD 0 + 1
    left :: distanceRow a (row.headD 0) left t row.tail) start
  last.getLast?.getD 0

/-- The commands that are written much like a word, or start with it. -/
def similarCommands (given : String) : List String :=
  let lower (s : String) : String := s.map Char.toLower
  (commandNames ++ ["completion"]).filter fun name =>
    editDistance (lower given).toUTF8.toList name.toUTF8.toList ≤ 2 ||
      Text.hasPrefix name (lower given)

end CommandLine

open CommandLine

/-! ### Commands -/

/-- What every command is told. -/
structure SharedOptions where
  logLevel : String
  logFormat : String
  catalogFolder : String
  cacheSize : Int

/-- Where a contract goes. -/
structure OutputOptions where
  /-- The file for the source; empty for the output. -/
  source : String
  /-- The file for the interface; empty for none. -/
  interface : String
  format : String

/-- A command. -/
inductive Command
  | help
  | compile (shared : SharedOptions) (project : String) (output : OutputOptions)
      (canvas : Option String)
  | serve (shared : SharedOptions) (listen : String) (healthPort : Int) (project : String)
  | submit (shared : SharedOptions) (url session project : String) (output : OutputOptions)
      (transport canvas : String)
  | catalog (shared : SharedOptions) (format : String)

namespace Command

/-- Where the server listens, if nothing else is said. -/
def defaultListen : String := ":8090"

/-- The shared options of a command line. -/
def sharedOf (g : Given) : SharedOptions where
  logLevel := g.text "log-level" "warn"
  logFormat := g.text "log-format" "text"
  catalogFolder := g.text "catalog-dir" ""
  cacheSize := g.number "cache-size" 0

/-- The output options of a command line. -/
def outputOf (g : Given) : OutputOptions where
  source := g.text "out" ""
  interface := g.text "abi" ""
  format := g.text "format" "text"

/-- The command of a name, if its arguments and options are complete. -/
def ofGiven (name : String) (g : Given) : Except UsageFault Command :=
  let shared := sharedOf g
  let project := g.text "project" ""
  let count := g.arguments.length
  let noArguments (c : Command) : Except UsageFault Command :=
    match g.arguments with
    | [] => .ok c
    | a :: _ => .error (.unknownCommand a (programName ++ " " ++ name) [])
  if g.truth "help" then .ok .help
  else match name with
    | "compile" =>
      if count > 1 then .error (.tooManyArguments 1 count)
      else .ok (.compile shared project (outputOf g) g.arguments.head?)
    | "serve" =>
      noArguments (.serve shared (g.text "listen" defaultListen) (g.number "healthcheck-port" 0)
        project)
    | "submit" =>
      match g.arguments with
      | [canvas] =>
        if (g.value? "url").isNone then .error (.missingOption "url")
        else .ok (.submit shared (g.text "url" "") (g.text "session" "") project (outputOf g)
          (g.text "transport" "socketio") canvas)
      | _ => .error (.wrongArguments 1 count)
    | "catalog" => noArguments (.catalog shared (g.text "format" "table"))
    | _ => .ok .help

/-- What every command is told. -/
def shared? : Command → Option SharedOptions
  | help => none
  | compile s .. | serve s .. | submit s .. | catalog s _ => some s

/-- The files that a command reads, besides those of a catalog. -/
def filesRead : Command → List String
  | compile _ project _ canvas => project :: canvas.toList
  | serve _ _ _ project => [project]
  | submit _ _ _ project _ _ canvas => [project, canvas]
  | help | catalog _ _ => []

/-- The files that a command may write. -/
def filesWritten : Command → List String
  | compile _ _ o _ | submit _ _ _ _ o _ _ => [o.source, o.interface]
  | help | serve .. | catalog .. => []

/-- Whether a command reads what is typed in. -/
def readsInput : Command → Bool
  | compile _ _ _ none => true
  | _ => false

/-- Reads a command line. -/
def parse (words : List String) : Except UsageFault Command := do
  match plainWords words with
  | [] =>
    let _ ← Given.parse sharedForms words
    return .help
  | name :: _ =>
    if (commandNames ++ helpNames).contains name then
      ofGiven name (← Given.parse (formsOf name) (without name words))
    else .error (.unknownCommand name programName (similarCommands name))

end Command

end SolidityCanvas
