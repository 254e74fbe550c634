/-
What a run of the program is told.

Settings are filled in with defaults and then checked. A check that fails
gives a fault for its field, and the faults are reported together in the
order of the fields.
-/
import SolidityCanvas.FileTree
import SolidityCanvas.Number.Decimal
import SolidityCanvas.Text.Case
import SolidityCanvas.Text.Letter
import SolidityCanvas.Text.Quoted

namespace SolidityCanvas

/-- What a run is told. Empty texts are not given. -/
structure Settings where
  logLevel : String := ""
  logFormat : String := ""
  /-- A folder with more catalog files. -/
  catalogFolder : String := ""
  /-- A file that says what the contract is called. -/
  projectFile : String := ""
  /-- Where the server listens. -/
  listenAddress : String := ""
  /-- Where the server says that it is there; zero for nowhere. -/
  healthPort : Int := 0
  /-- How many results are remembered; zero for the default. -/
  cacheSize : Int := 0
  deriving DecidableEq, Inhabited

/-- What is wrong with a setting. -/
inductive SettingFault
  | logLevel (given : String)
  | logFormat (given : String)
  | catalogFolder (given : String)
  | projectFile (given : String)
  | listenAddress (given : String)
  | healthPort (given : Int)
  | cacheSize (given : Int)
  deriving DecidableEq, Inhabited

namespace Settings

/-- How much is logged. -/
def logLevels : List String := ["debug", "info", "warn", "error"]

/-- How a log is written. -/
def logFormats : List String := ["text", "json"]

/-- The largest number of a service. -/
def maxPort : Nat := 65535

end Settings

/-- The fault in words. -/
def SettingFault.message : SettingFault → String
  | logLevel v =>
    "invalid LogLevel " ++ Text.quoted v ++ ": must be one of " ++ " ".intercalate Settings.logLevels
  | logFormat v =>
    "invalid LogFormat " ++ Text.quoted v ++ ": must be one of " ++
      " ".intercalate Settings.logFormats
  | catalogFolder v => "CatalogDir " ++ Text.quoted v ++ " is not a directory"
  | projectFile v => "ProjectFile " ++ Text.quoted v ++ " is not a file"
  | listenAddress v => "invalid ListenAddr " ++ Text.quoted v ++ ": expected host:port"
  | healthPort n =>
    "invalid HealthcheckPort " ++ toString n ++ ": failed \"" ++
      (if n < 0 then "gte" else "lte") ++ "\" check"
  | cacheSize n => "invalid CacheSize " ++ toString n ++ ": failed \"gte\" check"

namespace Settings

/-- A list of faults in words. -/
def faultsMessage (faults : List SettingFault) : String :=
  "; ".intercalate (faults.map (·.message))

/-! ### Addresses to listen at -/

/-- The parts before and after the last colon. -/
def cutLastColon? (cs : List Char) : Option (List Char × List Char) :=
  match cs.reverse.dropWhile (· != ':') with
  | [] => none
  | _ :: before => some (before.reverse, cs.drop (before.length + 1))

/-- The host and the service of an address. A host in brackets loses them; no
other bracket and, outside brackets, no second colon may stand in it. -/
def splitAddress? (cs : List Char) : Option (List Char × List Char) := do
  let (host, service) ← cutLastColon? cs
  let isBracket (c : Char) : Bool := c == '[' || c == ']'
  if service.any isBracket then none
  match host with
  | '[' :: inner =>
    let inside := inner.takeWhile (· != ']')
    if inner.drop inside.length != [']'] || inside.contains '[' then none
    return (inside, service)
  | _ => if host.any fun c => c == ':' || isBracket c then none else return (host, service)

/-- Whether a text is a number of a service. A plus sign and zeros may stand
before it. -/
def isService (cs : List Char) : Bool :=
  let digits := match cs with
    | '+' :: rest => rest
    | _ => cs
  !digits.isEmpty && digits.all isDecimalDigit &&
    (let n := decimalValue digits; 1 ≤ n && n ≤ maxPort)

/-- Whether a text is a part of a host's name. -/
def isHostLabel : List Char → Bool
  | [] => false
  | c :: rest =>
    let isInner (c : Char) : Bool := Text.isAsciiLetter c || Text.isAsciiDigit c
    isInner c && rest.length ≤ 62 && rest.all fun c => isInner c || c == '-'

/-- Whether one can listen at an address: a service, at any host or at one
with a name. -/
def isAddress (s : String) : Bool :=
  match splitAddress? s.toList with
  | none => false
  | some (host, service) =>
    isService service && (host.isEmpty || (Text.splitOnChar '.' host).all isHostLabel)

/-! ### Checking -/

/-- The settings with defaults for the log, whose words are in lower case. -/
def withDefaults (s : Settings) : Settings :=
  let word (given default : String) : String :=
    Text.toLower (if given.isEmpty then default else given)
  { s with logLevel := word s.logLevel "info", logFormat := word s.logFormat "text" }

/-- What is wrong with settings. -/
def faults (tree : FileTree) (s : Settings) : List SettingFault :=
  let orFault (ok : Bool) (f : SettingFault) : List SettingFault := if ok then [] else [f]
  orFault (logLevels.contains s.logLevel) (.logLevel s.logLevel) ++
    orFault (logFormats.contains s.logFormat) (.logFormat s.logFormat) ++
    orFault (s.catalogFolder.isEmpty || tree.isFolder s.catalogFolder)
      (.catalogFolder s.catalogFolder) ++
    orFault (s.projectFile.isEmpty || tree.isFile s.projectFile) (.projectFile s.projectFile) ++
    orFault (s.listenAddress.isEmpty || isAddress s.listenAddress)
      (.listenAddress s.listenAddress) ++
    orFault (0 ≤ s.healthPort && s.healthPort ≤ maxPort) (.healthPort s.healthPort) ++
    orFault (0 ≤ s.cacheSize) (.cacheSize s.cacheSize)

/-- The settings with their defaults, if nothing is wrong with them. -/
def check (tree : FileTree) (s : Settings) : Except (List SettingFault) Settings :=
  let s := s.withDefaults
  match s.faults tree with
  | [] => .ok s
  | fs => .error fs

end Settings

end SolidityCanvas
