/-
Tokens of the configuration language.

`tokenize?` splits a text into tokens; `none` means that some character
cannot stand where it does. Code and texts nest in each other: a quoted text
or a heredoc may hold an interpolation `${…}` or a directive `%{…}`, whose
code may hold texts again. The stack of `LexMode`s says where the reader is.

Texts are given with their escapes resolved, cut where the grammar cuts them:
a heredoc at the ends of its lines, a quoted text around a dollar or percent
sign that stands for itself.
-/
import SolidityCanvas.Text.Letter
import SolidityCanvas.Text.Ranges
import SolidityCanvas.Text.Split

namespace SolidityCanvas.Config

open Text

/-- Signs of the grammar. -/
inductive Symbol
  | openParen
  | closeParen
  | openBracket
  | closeBracket
  | openBrace
  | closeBrace
  | comma
  | dot
  | ellipsis
  | assign
  | arrow
  | question
  | colon
  | doubleColon
  | plus
  | minus
  | star
  | slash
  | percent
  | bang
  | equal
  | notEqual
  | less
  | lessOrEqual
  | greater
  | greaterOrEqual
  | and
  | or
  deriving DecidableEq, Inhabited

/-- A token. `strip` says that white space next to it, outside the sequence,
is dropped. -/
inductive Token
  | symbol (s : Symbol)
  | name (s : String)
  | number (text : String)
  | newline
  | openQuote
  | closeQuote
  | openHeredoc (flush : Bool)
  | closeHeredoc
  | text (s : String)
  | openInterpolation (strip : Bool)
  | openDirective (strip : Bool)
  | closeSequence (strip : Bool)
  deriving DecidableEq, Inhabited

/-- Where the reader is. -/
inductive LexMode
  /-- In code, with a number of open braces. -/
  | code (braces : Nat)
  /-- In a quoted text. -/
  | quoted
  /-- In a heredoc that ends at a marker; `lineStart` says that nothing of the
  line has been read. -/
  | heredoc (marker : List Char) (lineStart : Bool)
  /-- In a text without quotes, which ends with the input. -/
  | bare

/-! ### Code -/

/-- The sign at the start of a text, and what follows it. -/
def takeSymbol? : List Char → Option (Symbol × List Char)
  | '.' :: '.' :: '.' :: cs => some (.ellipsis, cs)
  | '=' :: '=' :: cs => some (.equal, cs)
  | '=' :: '>' :: cs => some (.arrow, cs)
  | '!' :: '=' :: cs => some (.notEqual, cs)
  | '<' :: '=' :: cs => some (.lessOrEqual, cs)
  | '>' :: '=' :: cs => some (.greaterOrEqual, cs)
  | '&' :: '&' :: cs => some (.and, cs)
  | '|' :: '|' :: cs => some (.or, cs)
  | ':' :: ':' :: cs => some (.doubleColon, cs)
  | '(' :: cs => some (.openParen, cs)
  | ')' :: cs => some (.closeParen, cs)
  | '[' :: cs => some (.openBracket, cs)
  | ']' :: cs => some (.closeBracket, cs)
  | ',' :: cs => some (.comma, cs)
  | '.' :: cs => some (.dot, cs)
  | '=' :: cs => some (.assign, cs)
  | '?' :: cs => some (.question, cs)
  | ':' :: cs => some (.colon, cs)
  | '+' :: cs => some (.plus, cs)
  | '-' :: cs => some (.minus, cs)
  | '*' :: cs => some (.star, cs)
  | '/' :: cs => some (.slash, cs)
  | '%' :: cs => some (.percent, cs)
  | '!' :: cs => some (.bang, cs)
  | '<' :: cs => some (.less, cs)
  | '>' :: cs => some (.greater, cs)
  | _ => none

/-- A character that opens a name in this language. -/
def opensName (c : Char) : Bool := isNameStart c || c == '_'

/-- A character that continues a name in this language. -/
def continuesName (c : Char) : Bool := isNameContinue c || c == '-'

/-- The fraction of a number, with its point, and the rest. -/
def takeFraction (cs : List Char) : List Char × List Char :=
  match cs with
  | '.' :: d :: rest =>
    if isAsciiDigit d then
      ('.' :: (d :: rest).takeWhile isAsciiDigit, (d :: rest).dropWhile isAsciiDigit)
    else ([], cs)
  | _ => ([], cs)

/-- The exponent of a number, with its letter, and the rest. -/
def takeExponent (cs : List Char) : List Char × List Char :=
  match cs with
  | e :: rest =>
    if e == 'e' || e == 'E' then
      let (sign, digits) := match rest with
        | '+' :: more => (['+'], more)
        | '-' :: more => (['-'], more)
        | more => ([], more)
      match digits with
      | d :: _ =>
        if isAsciiDigit d then
          (e :: sign ++ digits.takeWhile isAsciiDigit, digits.dropWhile isAsciiDigit)
        else ([], cs)
      | [] => ([], cs)
    else ([], cs)
  | [] => ([], cs)

/-- The number at the start of a text, and the rest. -/
def takeNumber (cs : List Char) : List Char × List Char :=
  let whole := cs.takeWhile isAsciiDigit
  let (fraction, rest) := takeFraction (cs.dropWhile isAsciiDigit)
  let (exponent, rest) := takeExponent rest
  (whole ++ fraction ++ exponent, rest)

/-- What follows a line comment, and whether the line ended. -/
def skipLine : List Char → Bool × List Char
  | [] => (false, [])
  | '\n' :: cs => (true, cs)
  | _ :: cs => skipLine cs

/-- What follows the end of a block comment. -/
def skipComment? : List Char → Option (List Char)
  | [] => none
  | '*' :: '/' :: cs => some cs
  | _ :: cs => skipComment? cs

/-- The marker of a heredoc, whether it is a flush one, and what follows its
first line. -/
def takeHeredoc? (cs : List Char) : Option (Bool × List Char × List Char) :=
  let (flush, cs) := match cs with
    | '-' :: rest => (true, rest)
    | _ => (false, cs)
  match cs with
  | c :: _ =>
    if opensName c then
      let marker := cs.takeWhile continuesName
      match cs.dropWhile continuesName with
      | '\n' :: rest => some (flush, marker, rest)
      | '\r' :: '\n' :: rest => some (flush, marker, rest)
      | _ => none
    else none
  | [] => none

/-! ### Texts -/

/-- The character that a number of digits after a backslash stands for, and
the rest. -/
def takeCode? (digits : Nat) (cs : List Char) : Option (Char × List Char) :=
  let hex := cs.take digits
  let n := hexValue hex
  if hex.length == digits && hex.all isHexDigit && n.isValidChar then
    some (Char.ofNat n, cs.drop digits)
  else none

/-- A run of a quoted text up to a sign that may mean something, with its
escapes resolved. `none` if an escape or a line break is in the way. The
first argument bounds the number of characters. -/
def takeQuoted? : Nat → List Char → Option (List Char × List Char)
  | 0, cs => some ([], cs)
  | fuel + 1, cs =>
    match cs with
    | [] => some ([], [])
    | '\n' :: _ => none
    | '\r' :: '\n' :: _ => none
    | '"' :: _ | '$' :: _ | '%' :: _ => some ([], cs)
    | '\\' :: c :: rest => do
      let (d, rest) ← match c with
        | 'n' => some ('\n', rest)
        | 'r' => some ('\r', rest)
        | 't' => some ('\t', rest)
        | '"' => some ('"', rest)
        | '\\' => some ('\\', rest)
        | 'u' => takeCode? 4 rest
        | 'U' => takeCode? 8 rest
        | _ => none
      let (ds, rest) ← takeQuoted? fuel rest
      return (d :: ds, rest)
    | '\\' :: [] => none
    | c :: rest => do
      let (ds, rest) ← takeQuoted? fuel rest
      return (c :: ds, rest)

/-- A run of a text without quotes up to the end of the line, which belongs
to it, or up to an interpolation or a directive. -/
def takeLine : List Char → List Char × List Char
  | [] => ([], [])
  | '\n' :: cs => (['\n'], cs)
  | '$' :: '$' :: '\x7b' :: cs =>
    let (ds, rest) := takeLine cs
    ('$' :: '\x7b' :: ds, rest)
  | '%' :: '%' :: '\x7b' :: cs =>
    let (ds, rest) := takeLine cs
    ('%' :: '\x7b' :: ds, rest)
  | '$' :: '\x7b' :: cs => ([], '$' :: '\x7b' :: cs)
  | '%' :: '\x7b' :: cs => ([], '%' :: '\x7b' :: cs)
  | c :: cs =>
    let (ds, rest) := takeLine cs
    (c :: ds, rest)

/-- The opening of an interpolation or a directive, and the rest. -/
def takeOpening? : List Char → Option (Token × List Char)
  | '$' :: '\x7b' :: '~' :: cs => some (.openInterpolation true, cs)
  | '$' :: '\x7b' :: cs => some (.openInterpolation false, cs)
  | '%' :: '\x7b' :: '~' :: cs => some (.openDirective true, cs)
  | '%' :: '\x7b' :: cs => some (.openDirective false, cs)
  | _ => none

/-! ### The reader -/

/-- The tokens read in one step, the modes after it, and the rest. -/
structure LexStep where
  tokens : List Token
  modes : List LexMode
  rest : List Char

/-- One step in code, at a character. `outer` are the modes around. -/
def stepCode? (braces : Nat) (outer : List LexMode) (c : Char) (cs : List Char) :
    Option LexStep :=
  let here (ts : List Token) (rest : List Char) : Option LexStep :=
    some ⟨ts, .code braces :: outer, rest⟩
  if c == ' ' || c == '\t' then here [] cs
  else if c == '\n' then here [.newline] cs
  else if c == '\r' then
    match cs with
    | '\n' :: rest => here [.newline] rest
    | _ => none
  else if c == '#' || (c == '/' && cs.head? == some '/') then
    let (ended, rest) := skipLine cs
    here (if ended then [.newline] else []) rest
  else if c == '/' && cs.head? == some '*' then
    (skipComment? (cs.drop 1)).bind (here [])
  else if opensName c then
    here [.name (String.ofList (c :: cs.takeWhile continuesName))] (cs.dropWhile continuesName)
  else if isAsciiDigit c then
    let (number, rest) := takeNumber (c :: cs)
    here [.number (String.ofList number)] rest
  else if c == '"' then some ⟨[.openQuote], .quoted :: .code braces :: outer, cs⟩
  else if c == '\x7b' then some ⟨[.symbol .openBrace], .code (braces + 1) :: outer, cs⟩
  else if c == '\x7d' then
    match braces, outer with
    | 0, _ :: _ => some ⟨[.closeSequence false], outer, cs⟩
    | _, _ => some ⟨[.symbol .closeBrace], .code (braces - 1) :: outer, cs⟩
  else if c == '~' then
    match cs, braces, outer with
    | '\x7d' :: rest, 0, _ :: _ => some ⟨[.closeSequence true], outer, rest⟩
    | _, _, _ => none
  else
    match if c == '<' && cs.head? == some '<' then takeHeredoc? (cs.drop 1) else none with
    | some (flush, marker, rest) =>
      some ⟨[.openHeredoc flush], .heredoc marker true :: .code braces :: outer, rest⟩
    | none => (takeSymbol? (c :: cs)).bind fun (s, rest) => here [.symbol s] rest

/-- One step in a quoted text. -/
def stepQuoted? (outer : List LexMode) (cs : List Char) : Option LexStep :=
  match takeOpening? cs with
  | some (opening, rest) => some ⟨[opening], .code 0 :: .quoted :: outer, rest⟩
  | none =>
    match cs with
    | '"' :: rest => some ⟨[.closeQuote], outer, rest⟩
    | '$' :: '$' :: '\x7b' :: rest => some ⟨[.text "$\x7b"], .quoted :: outer, rest⟩
    | '%' :: '%' :: '\x7b' :: rest => some ⟨[.text "%\x7b"], .quoted :: outer, rest⟩
    | '$' :: rest => some ⟨[.text "$"], .quoted :: outer, rest⟩
    | '%' :: rest => some ⟨[.text "%"], .quoted :: outer, rest⟩
    | cs => (takeQuoted? cs.length cs).map fun (ds, rest) =>
        ⟨[.text (String.ofList ds)], .quoted :: outer, rest⟩

/-- One step in a text without quotes. `marker` ends a heredoc. -/
def stepLines? (marker : Option (List Char)) (lineStart : Bool) (outer : List LexMode)
    (cs : List Char) : Option LexStep :=
  let mode (atStart : Bool) : LexMode := match marker with
    | some m => .heredoc m atStart
    | none => .bare
  match takeOpening? cs with
  | some (opening, rest) => some ⟨[opening], .code 0 :: mode false :: outer, rest⟩
  | none =>
    let (line, rest) := takeLine cs
    let ended := line.getLast? == some '\n'
    if ended && lineStart && marker == some (trimChars line) then
      some ⟨[.closeHeredoc, .newline], outer, rest⟩
    else some ⟨[.text (String.ofList line)], mode ended :: outer, rest⟩

/-- One step. -/
def lexStep? (modes : List LexMode) (c : Char) (cs : List Char) : Option LexStep :=
  match modes with
  | [] => none
  | .code braces :: outer => stepCode? braces outer c cs
  | .quoted :: outer => stepQuoted? outer (c :: cs)
  | .heredoc marker lineStart :: outer => stepLines? (some marker) lineStart outer (c :: cs)
  | .bare :: outer => stepLines? none false outer (c :: cs)

/-- Reads to the end of the input, where only the outermost mode may be left.
Every step takes at least one character, so the length of the input is
enough for the first argument. -/
def lexFrom? : Nat → List LexMode → List Char → Option (List Token)
  | _, modes, [] => if modes.length == 1 then some [] else none
  | 0, _, _ :: _ => none
  | fuel + 1, modes, c :: cs => do
    let step ← lexStep? modes c cs
    let rest ← lexFrom? fuel step.modes step.rest
    return step.tokens ++ rest

/-- The input without a byte order mark. -/
def withoutMark : List Char → List Char
  | c :: cs => if c.toNat == 0xFEFF then cs else c :: cs
  | [] => []

/-- The tokens of a file or an expression. -/
def tokenize? (s : String) : Option (List Token) :=
  let cs := withoutMark s.toList
  lexFrom? cs.length [.code 0] cs

/-- The tokens of a text with interpolations. -/
def tokenizeTemplate? (s : String) : Option (List Token) :=
  let cs := withoutMark s.toList
  lexFrom? cs.length [.bare] cs

end SolidityCanvas.Config
