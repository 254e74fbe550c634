/-
Type texts and declarations of the contract language.

* `isType`: an elementary type, a declared name, a mapping of types, or an
  array of any of those.
* `Parameter.read`: a declaration such as `address indexed from`, split into
  its type, its qualifiers and its name.
-/
import SolidityCanvas.Solidity.AbiType

namespace SolidityCanvas.Solidity

open Text

/-! ### Types -/

/-- The part of a text before its last opening bracket and the part after it
without the last character, which closes the bracket. -/
def splitLastBracket? (cs : List Char) : Option (List Char × List Char) :=
  match cs.reverse.dropWhile (· != '[') with
  | [] => none
  | _ :: before =>
    some (before.reverse, ((cs.reverse.takeWhile (· != '[')).drop 1).reverse)

theorem splitLastBracket?_length {cs before size : List Char}
    (h : splitLastBracket? cs = some (before, size)) : before.length < cs.length := by
  unfold splitLastBracket? at h
  split at h
  · cases h
  · next x rest hd =>
    simp only [Option.some.injEq, Prod.mk.injEq] at h
    have hlen : (cs.reverse.dropWhile (· != '[')).length ≤ cs.reverse.length :=
      (List.dropWhile_sublist _).length_le
    rw [hd] at hlen
    rw [← h.1]
    simp at hlen ⊢
    omega

theorem trimChars_length (cs : List Char) : (trimChars cs).length ≤ cs.length := by
  have h1 : (cs.dropWhile isBlank).length ≤ cs.length := (List.dropWhile_sublist _).length_le
  have h2 : ((cs.dropWhile isBlank).reverse.dropWhile isBlank).length ≤
      (cs.dropWhile isBlank).reverse.length := (List.dropWhile_sublist _).length_le
  simp [trimChars, dropRightWhile] at h1 h2 ⊢
  omega

/-- Strips brackets that are empty or hold a number from the end of a text,
and the white space before each; `none` if brackets hold anything else or do
not open. -/
def stripArrays (cs : List Char) : Option (List Char) :=
  if cs.getLast? == some ']' then
    match h : splitLastBracket? cs with
    | none => none
    | some (before, size) =>
      have : (trimChars before).length < cs.length :=
        Nat.lt_of_le_of_lt (trimChars_length before) (splitLastBracket?_length h)
      let size := trimChars size
      if size.isEmpty || isDigits size then stripArrays (trimChars before) else none
  else some cs
termination_by cs.length

theorem stripArrays_length {cs base : List Char} (h : stripArrays cs = some base) :
    base.length ≤ cs.length := by
  fun_induction stripArrays cs with
  | case1 => cases h
  | case2 cs _ before size hs _ _ _ ih =>
    exact Nat.le_trans (ih h) (Nat.le_of_lt (by
      have := splitLastBracket?_length hs
      have := trimChars_length before
      omega))
  | case3 => cases h
  | case4 => cases h; exact Nat.le_refl _

/-- What stands between `mapping(` and a closing parenthesis at the end. -/
def mappingInner? (cs : List Char) : Option (List Char) :=
  if "mapping(".toList.isPrefixOf cs && cs.getLast? == some ')' then
    some ((cs.drop 8).dropLast)
  else none

theorem mappingInner?_length {cs inner : List Char} (h : mappingInner? cs = some inner) :
    inner.length < cs.length := by
  unfold mappingInner? at h
  split at h
  · next hc =>
    cases h
    cases cs with
    | nil => simp at hc
    | cons c cs => simp; omega
  · cases h

theorem cut_length {pat cs before after : List Char} (h : cut pat cs = some (before, after)) :
    before.length ≤ cs.length ∧ after.length ≤ cs.length := by
  induction cs generalizing before with
  | nil =>
    simp only [cut] at h
    split at h <;> cases h
    simp
  | cons c cs ih =>
    simp only [cut] at h
    split at h
    · cases h
      simp
    · obtain ⟨⟨b, a⟩, hb, heq⟩ := Option.map_eq_some_iff.1 h
      cases heq
      have hle := ih hb
      simp only [List.length_cons]
      exact ⟨Nat.succ_le_succ hle.1, Nat.le_succ_of_le hle.2⟩

/-- The full name of a type that may be written short. -/
def fullName : String → String
  | "uint" => "uint256"
  | "int" => "int256"
  | "byte" => "bytes1"
  | s => s

/-- An integer type whose size is not a multiple of eight from 8 to 256. -/
def hasBadIntSize (s : String) : Bool :=
  match (sizeAfter? "int" s).orElse fun _ => sizeAfter? "uint" s with
  | none => false
  | some digits =>
    let n := digitsValue digits
    !(8 ≤ n && n ≤ 256 && n % 8 == 0)

/-- A type that is neither an array nor a mapping. -/
def isPlainType (s : String) (declared : String → Bool) : Bool :=
  if ["address payable", "string", "bytes", "bool", "address"].contains s then true
  else
    let s := fullName s
    if declared s then true
    else if !isIdentifier s || s == "tuple" || s == "function" then false
    else if hasBadIntSize s then false
    else match (AbiArgument.mk "" s "" [] false).typeText with
      | .ok _ => true
      | .error _ => false

/-- A type as a list of characters. `declared` says which names stand for
types declared elsewhere. -/
def isTypeChars (cs : List Char) (declared : String → Bool) : Bool :=
  let trimmed := trimChars cs
  if trimmed.isEmpty then false
  else match h : stripArrays trimmed with
    | none => false
    | some base =>
      match hm : mappingInner? base with
      | some inner =>
        match hc : cut ['=', '>'] inner with
        | none => false
        | some (key, value) =>
          have : inner.length < cs.length :=
            Nat.lt_of_lt_of_le (mappingInner?_length hm)
              (Nat.le_trans (stripArrays_length h) (trimChars_length cs))
          have := cut_length hc
          have : key.length < cs.length := by omega
          have : value.length < cs.length := by omega
          isTypeChars key declared && isTypeChars value declared
      | none => isPlainType (String.ofList base) declared
termination_by cs.length

/-- Whether a text names a type: an elementary type, a declared name, a
mapping of types, or an array of any of those. -/
def isType (s : String) (declared : String → Bool) : Bool := isTypeChars s.toList declared

/-! ### Declarations -/

/-- A parameter or field declaration. -/
structure Parameter where
  type : String
  location : String := ""
  indexed : Bool := false
  name : String := ""
  /-- Words after the name. -/
  extra : List String := []
  deriving DecidableEq, Inhabited

/-- Where a value of a reference type is kept. -/
def isLocation (w : String) : Bool := ["memory", "storage", "calldata"].contains w

/-- Takes in one word after the type. -/
def Parameter.addWord (p : Parameter) (w : String) : Parameter :=
  if w == "indexed" && !p.indexed && p.name.isEmpty then { p with indexed := true }
  else if p.location.isEmpty && p.name.isEmpty && isLocation w then { p with location := w }
  else if p.name.isEmpty then { p with name := w }
  else { p with extra := p.extra ++ [w] }

/-- The text up to the parenthesis that closes `depth` open ones, that
parenthesis included, and the rest. -/
def closeParens : Nat → List Char → Option (List Char × List Char)
  | _, [] => none
  | depth, c :: cs =>
    if c == ')' && depth ≤ 1 then some ([c], cs)
    else
      let depth := if c == '(' then depth + 1 else if c == ')' then depth - 1 else depth
      (closeParens depth cs).map fun (inside, rest) => (c :: inside, rest)

/-- Leading pairs of brackets, and the rest. A bracket that is not closed is
left in the rest. -/
def leadingBrackets : List Char → List Char × List Char
  | [] => ([], [])
  | c :: cs =>
    if c == '[' then
      match _h : cut [']'] cs with
      | none => ([], c :: cs)
      | some (inside, rest) =>
        let (more, rest') := leadingBrackets rest
        (c :: inside ++ ']' :: more, rest')
    else ([], c :: cs)
termination_by cs => cs.length
decreasing_by exact Nat.lt_succ_of_le (cut_length _h).2

/-- Reads a declaration. The type may hold spaces, as in
`mapping(address => uint256)` and `address payable`. -/
def Parameter.read (s : String) : Parameter :=
  let text := trimChars s.toList
  if "mapping(".toList.isPrefixOf text then
    match closeParens 1 (text.drop 8) with
    | none => { type := String.ofList text }
    | some (inside, rest) =>
      let (brackets, rest) := leadingBrackets rest
      let type := String.ofList (text.take 8 ++ inside ++ brackets)
      (fields (String.ofList rest)).foldl addWord { type }
  else
    match fields (String.ofList text) with
    | [] => { type := "" }
    | first :: more =>
      match if first == "address" then dropPrefix? (" ".intercalate more) "payable" else none with
      | some rest => (fields rest).foldl addWord { type := "address payable" }
      | none => more.foldl addWord { type := first }

end SolidityCanvas.Solidity
