/-
The program.

`run` carries out a command line among given surroundings: the files, what is
typed in, and how to reach a server. It gives what is printed, the files
afterwards and, if the command failed, the error.
-/
import SolidityCanvas.Canvas.Load
import SolidityCanvas.Catalog.Listing
import SolidityCanvas.Catalog.Load
import SolidityCanvas.Client
import SolidityCanvas.CommandLine
import SolidityCanvas.Project
import SolidityCanvas.Settings

namespace SolidityCanvas

/-! ### Errors -/

/-- Why a command fails. -/
inductive ProgramError
  | usage (f : CommandLine.UsageFault)
  | format (given : String) (allowed : List String)
  | transport (given : String)
  | settings (faults : List SettingFault)
  | catalog (e : CatalogError)
  | project (e : ProjectError)
  | canvas (e : CanvasError)
  | compile (e : CompileError)
  | client (e : ClientError)
  | superseded (version : UInt64) (session : String)
  | rejected (errors : Nat)
  /-- What could not be written, where, and why. -/
  | unwritable (what path : String) (f : FileFault)
  | noListener (address : String)

namespace ProgramError

/-- What stands for faults of documents and of configurations. -/
structure Wording where
  document : String := "malformed JSON"
  configuration : String := "malformed configuration"

/-- Faults of a catalog as a whole: the first one, and how many others there
are. -/
def catalogWords : List Config.Fault → String
  | [] => ""
  | f :: rest =>
    let detail := match f with
      | .meaning _ d => d
      | _ => ""
    "<nil>: " ++ f.summary ++ "; " ++ detail ++
      if rest.isEmpty then "" else ", and " ++ toString rest.length ++ " other diagnostic(s)"

/-- The error in words. -/
def message (w : Wording) : ProgramError → String
  | usage f => f.message
  | format given allowed =>
    "invalid format " ++ Text.quoted given ++ ": must be one of [" ++ " ".intercalate allowed ++ "]"
  | transport given =>
    "invalid transport " ++ Text.quoted given ++ ": must be socketio or http"
  | settings fs => Settings.faultsMessage fs
  | catalog e => "failed to load catalog: " ++ e.message w.configuration catalogWords
  | project e => e.message w.configuration
  | canvas e => e.message w.document w.configuration
  | compile e => e.message w.configuration
  | client e => e.message w.document
  | superseded version session =>
    "version " ++ toString version.toNat ++ " of session " ++ session ++ " was superseded"
  | rejected n => "canvas rejected with " ++ toString n ++ " error(s)"
  | unwritable what path f => "failed to write " ++ what ++ ": open " ++ path ++ ": " ++ f.message
  | noListener address => "failed to listen on " ++ address

/-- The code that the program ends with: 2 if it was not used well or broke
off, and 1 if it could not do its work. -/
def code : ProgramError → Nat
  | usage _ | format _ _ | transport _ | settings _ | compile .broken => 2
  | _ => 1

end ProgramError

namespace Program

/-! ### Surroundings and outcomes -/

/-- What a command finds around it. -/
structure Surroundings where
  files : FileTree
  /-- What is typed in. -/
  input : String
  /-- The reply of a server, or why there is none. -/
  reach : Http.Request → Except String Http.Reply
  /-- A name for a session that nobody else uses. -/
  freshSession : String

/-- What a command leaves behind. -/
structure Outcome where
  output : String := ""
  /-- What is printed for people to read. -/
  notes : String := ""
  files : FileTree
  error : Option ProgramError := none

/-- A command that failed before it printed anything. -/
def failed (s : Surroundings) (e : ProgramError) : Outcome := { files := s.files, error := some e }

/-- What the program says about itself. -/
def usageText : String :=
  let forms := ["compile [CANVAS]", "serve", "submit --url URL CANVAS", "catalog"]
  "Usage:\n" ++ String.join (forms.map fun f => "  " ++ CommandLine.programName ++ " " ++ f ++ "\n")

/-- Refuses a format that is not one of some. -/
def checkFormat (given : String) (allowed : List String) : Except ProgramError Unit :=
  if allowed.contains given then .ok () else .error (.format given allowed)

/-- The formats of a contract. -/
def resultFormats : List String := ["text", "json"]

/-- The ways to a server. -/
def transports : List String := ["socketio", "http"]

/-- The formats of a catalog. -/
def catalogFormats : List String := ["table", "yaml"]

/-! ### Commands -/

/-- A catalog and a header that are ready for work. -/
structure Workshop where
  settings : Settings
  catalog : Catalog
  header : Header

namespace Workshop

/-- Checks the settings and loads what they name. -/
def prepare (files : FileTree) (shared : SharedOptions) (more : Settings) :
    Except ProgramError Workshop := do
  let settings ← (Settings.check files { more with
    logLevel := shared.logLevel, logFormat := shared.logFormat
    catalogFolder := shared.catalogFolder, cacheSize := shared.cacheSize }).mapError .settings
  let catalog ← if settings.catalogFolder.isEmpty then .ok Catalog.standard
    else (Catalog.withPack files settings.catalogFolder).mapError .catalog
  let header ← (Project.load files settings.projectFile).mapError .project
  return { settings, catalog, header }

/-- Compiles a canvas. -/
def compile (w : Workshop) (canvas : Canvas) : Except ProgramError CompileResult :=
  ((Compiler.new w.catalog w.settings.cacheSize.toNat).compile canvas w.header false).1.mapError
    .compile

end Workshop

/-- Writes a file, unless no path is given. -/
def writeFile (files : FileTree) (what path text : String) : Except ProgramError FileTree :=
  if path.isEmpty then .ok files else (files.write path text).mapError (.unwritable what path)

/-- Prints a result and writes its files. Only a result with a document is
written. -/
def writeResult (s : Surroundings) (r : CompileResult) (o : OutputOptions) : Outcome :=
  let isText := o.format == "text"
  let output := if isText then "" else r.toJson.indented 0 ++ "\n"
  let notes := if isText then String.join (r.findings.map (·.text ++ "\n")) else ""
  if !r.isEmitted then
    { output, notes, files := s.files
      error := some (.rejected (r.findings.filter (·.isError)).length) }
  else match writeFile s.files "source" o.source r.source with
    | .error e => { output, notes, files := s.files, error := some e }
    | .ok files =>
      let output := if isText && o.source.isEmpty then r.source else output
      match r.interface with
      | none => { output, notes, files }
      | some x =>
        match writeFile files "ABI" o.interface (x.entriesText ++ "\n") with
        | .error e => { output, notes, files, error := some e }
        | .ok files => { output, notes, files }

/-- The canvas in a file, or typed in. -/
def canvasOf (s : Surroundings) : Option String → Except CanvasError Canvas
  | some path => Canvas.load s.files path
  | none => Canvas.ofDocument s.input

/-- Compiles a canvas. -/
def compile (s : Surroundings) (shared : SharedOptions) (project : String) (o : OutputOptions)
    (path : Option String) : Except ProgramError Outcome := do
  checkFormat o.format resultFormats
  let w ← Workshop.prepare s.files shared { projectFile := project }
  let canvas ← (canvasOf s path).mapError .canvas
  let result ← w.compile canvas
  return writeResult s result o

/-- The response of a server to a request. An open connection needs a network
that stays, and there is none. -/
def ask (s : Surroundings) (url transport : String) (r : CompileRequest) :
    Except ClientError CompileResponse := do
  if transport == "http" then
    let q ← Client.request url r
    Client.outcome q (s.reach q)
  else
    let _ ← Client.socketUrl url
    .error .timedOut

/-- Asks a server to compile a canvas. -/
def submit (s : Surroundings) (shared : SharedOptions) (url session project : String)
    (o : OutputOptions) (transport path : String) : Except ProgramError Outcome := do
  checkFormat o.format resultFormats
  if !transports.contains transport then .error (.transport transport)
  let w ← Workshop.prepare s.files shared { projectFile := project }
  let canvas ← (Canvas.load s.files path).mapError .canvas
  let session := if session.isEmpty then s.freshSession else session
  let response ← (ask s url transport {
    session, version := canvas.version, canvas := some canvas, header := w.header }).mapError .client
  match response.superseded, response.result with
  | false, some result => return writeResult s result o
  | _, _ => .error (.superseded response.version response.session)

/-- Gets ready to compile for editors. Listening itself is left to whoever has
a network. -/
def serve (s : Surroundings) (shared : SharedOptions) (listen : String) (healthPort : Int)
    (project : String) : Except ProgramError Outcome := do
  let w ← Workshop.prepare s.files shared {
    listenAddress := listen, healthPort, projectFile := project }
  .error (.noListener w.settings.listenAddress)

/-- Lists the templates. -/
def catalog (s : Surroundings) (shared : SharedOptions) (format : String) :
    Except ProgramError Outcome := do
  checkFormat format catalogFormats
  let w ← Workshop.prepare s.files shared {}
  return { files := s.files, output := if format == "yaml" then w.catalog.yaml else w.catalog.table }

/-- Carries out a command. -/
def perform (s : Surroundings) : Command → Except ProgramError Outcome
  | .help => .ok { files := s.files, output := usageText }
  | .compile shared project o path => compile s shared project o path
  | .serve shared listen healthPort project => serve s shared listen healthPort project
  | .submit shared url session project o transport path =>
    submit s shared url session project o transport path
  | .catalog shared format => catalog s shared format

/-- Carries out a command line. -/
def run (s : Surroundings) (words : List String) : Outcome :=
  match Command.parse words with
  | .error f => failed s (.usage f)
  | .ok command =>
    match perform s command with
    | .error e => failed s e
    | .ok o => o

end Program

end SolidityCanvas
