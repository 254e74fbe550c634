/-
Options on a command line.

* `OptionForm`: an option, with its name, perhaps a letter, and the kind of
  value it takes.
* `Given.parse`: the options and arguments in a list of words. Options may
  stand anywhere before the word `--`; of an option that is given twice the
  last value counts.
* `UsageFault`: why a command line cannot be understood.
-/
import SolidityCanvas.CommandLine.Value
import SolidityCanvas.Text.Split

namespace SolidityCanvas.CommandLine

/-- The kinds of values of options. -/
inductive ValueKind
  | text
  | truth
  | number
  | duration
  deriving DecidableEq, Inhabited

/-- An option. -/
structure OptionForm where
  name : String
  kind : ValueKind := .text
  letter : Option Char := none
  deriving DecidableEq, Inhabited

namespace OptionForm

/-- The option as messages name it. -/
def display (f : OptionForm) : String :=
  match f.letter with
  | some c => "-" ++ String.singleton c ++ ", --" ++ f.name
  | none => "--" ++ f.name

end OptionForm

/-- The value of an option. -/
inductive OptionValue
  | text (s : String)
  | truth (b : Bool)
  | number (n : Int)
  /-- In nanoseconds. -/
  | duration (n : Int)
  deriving DecidableEq, Inhabited

/-- Why a command line cannot be understood. -/
inductive UsageFault
  | unknownCommand (given path : String) (similar : List String)
  | unknownOption (name : String)
  | unknownLetter (letter : Char) (given : String)
  | missingValue (name : String)
  | missingLetterValue (letter : Char) (given : String)
  | badOption (given : String)
  | badValue (form : OptionForm) (given cause : String)
  | tooManyArguments (most received : Nat)
  | wrongArguments (expected received : Nat)
  | missingOption (name : String)
  deriving DecidableEq, Inhabited

namespace UsageFault

/-- A letter in single quotes. -/
def quotedLetter (c : Char) : String :=
  let inner := if c == '\'' then ['\\', c] else if c == '"' then [c] else Text.quotedChar c
  String.ofList ('\'' :: inner ++ ['\''])

/-- The fault in words. -/
def message : UsageFault → String
  | unknownCommand given path similar =>
    "unknown command " ++ Text.quoted given ++ " for " ++ Text.quoted path ++
      if similar.isEmpty then ""
      else "\n\nDid you mean this?\n" ++ String.join (similar.map fun s => "\t" ++ s ++ "\n")
  | unknownOption name => "unknown flag: --" ++ name
  | unknownLetter c given => "unknown shorthand flag: " ++ quotedLetter c ++ " in -" ++ given
  | missingValue name => "flag needs an argument: --" ++ name
  | missingLetterValue c given => "flag needs an argument: " ++ quotedLetter c ++ " in -" ++ given
  | badOption given => "bad flag syntax: " ++ given
  | badValue form given cause =>
    "invalid argument " ++ Text.quoted given ++ " for " ++ Text.quoted form.display ++ " flag: " ++
      cause
  | tooManyArguments most received =>
    "accepts at most " ++ toString most ++ " arg(s), received " ++ toString received
  | wrongArguments expected received =>
    "accepts " ++ toString expected ++ " arg(s), received " ++ toString received
  | missingOption name => "required flag(s) \"" ++ name ++ "\" not set"

end UsageFault

/-- What a command line gives. -/
structure Given where
  options : List (String × OptionValue) := []
  arguments : List String := []
  deriving Inhabited

namespace Given

/-- The value of an option. -/
def value? (g : Given) (name : String) : Option OptionValue := g.options.lookup name

/-- A text, or what stands for it if it is not given. -/
def text (g : Given) (name default : String) : String :=
  match g.value? name with
  | some (.text s) => s
  | _ => default

/-- A number, or what stands for it if it is not given. -/
def number (g : Given) (name : String) (default : Int) : Int :=
  match g.value? name with
  | some (.number n) | some (.duration n) => n
  | _ => default

/-- Whether an option is given and true. -/
def truth (g : Given) (name : String) : Bool := g.value? name == some (.truth true)

/-- The value that a text stands for. -/
def read : ValueKind → String → Except String OptionValue
  | .text, s => .ok (.text s)
  | .truth, s => (readTruth s).map .truth
  | .number, s => (readNumber s).map .number
  | .duration, s => (readDuration s).map .duration

/-- Gives an option a value. -/
def set (g : Given) (form : OptionForm) (value : String) : Except UsageFault Given := do
  let v ← (read form.kind value).mapError (.badValue form value)
  return { g with options := (form.name, v) :: g.options }

/-- An option that still needs its value, and the fault if there is none. -/
structure Pending where
  form : OptionForm
  fault : UsageFault

/-- The character with the number of the first byte of another one. -/
def leadByte (c : Char) : Char := Char.ofNat (((String.singleton c).toUTF8.toList.headD 0).toNat)

/-- Reads letters behind one dash. The rest after a letter that takes a value
is its value; without a rest, that is the next word. -/
def letters (forms : List OptionForm) (g : Given) :
    List Char → Except UsageFault (Given × Option Pending)
  | [] => .ok (g, none)
  | c :: rest => do
    let given := String.ofList (c :: rest)
    match forms.find? (·.letter == some c) with
    | none => .error (.unknownLetter (leadByte c) given)
    | some form =>
      match rest with
      | '=' :: v :: more => return (← g.set form (String.ofList (v :: more)), none)
      | _ =>
        if form.kind == .truth then
          let g ← g.set form "true"
          letters forms g rest
        else if rest.isEmpty then return (g, some ⟨form, .missingLetterValue (leadByte c) given⟩)
        else return (← g.set form (String.ofList rest), none)

/-- Reads a word with a name behind two dashes. -/
def named (forms : List OptionForm) (g : Given) (word : String) :
    Except UsageFault (Given × Option Pending) := do
  let cs := word.toList.drop 2
  if cs.head? == some '-' || cs.head? == some '=' then .error (.badOption word)
  let name := String.ofList (cs.takeWhile (· != '='))
  match forms.find? (·.name == name) with
  | none => .error (.unknownOption name)
  | some form =>
    match cs.dropWhile (· != '=') with
    | _ :: value => return (← g.set form (String.ofList value), none)
    | [] =>
      if form.kind == .truth then return (← g.set form "true", none)
      else return (g, some ⟨form, .missingValue name⟩)

/-- Reads words after what others gave. Words about tests of the program are
passed over. -/
def parseFrom (forms : List OptionForm) (g : Given) :
    Option Pending → List String → Except UsageFault Given
  | none, [] => .ok g
  | some p, [] => .error p.fault
  | some p, word :: rest => do
    let g ← g.set p.form word
    parseFrom forms g none rest
  | none, word :: rest => do
    match word.toList with
    | ['-', '-'] => return { g with arguments := g.arguments ++ rest }
    | '-' :: '-' :: _ =>
      let (g, pending) ← named forms g word
      parseFrom forms g pending rest
    | '-' :: c :: cs =>
      if "test.".toList.isPrefixOf (c :: cs) then parseFrom forms g none rest
      else
        let (g, pending) ← letters forms g (c :: cs)
        parseFrom forms g pending rest
    | _ => parseFrom forms { g with arguments := g.arguments ++ [word] } none rest

/-- The options and arguments in a list of words. -/
def parse (forms : List OptionForm) (words : List String) : Except UsageFault Given :=
  parseFrom forms {} none words

end Given

end SolidityCanvas.CommandLine
