/-
Expressions that evaluate without faults.

The kind of a value can often be told before it is computed: `Expr.kind?` reads
it off the expression, given the kinds of the variables.  It knows the forms
that texts are put together from, and gives up on all others.

* `Expr.eval_is`: an expression that has a kind has a value of that kind, and no
  faults, in every scope with values of the given kinds.
-/
import Mathlib.Data.List.Forall2
import SolidityCanvas.Config.Eval
import SolidityCanvas.Config.Function.Library
import SolidityCanvas.Proofs.Value.Named
import SolidityCanvas.Value.Coerce

namespace SolidityCanvas.Config

/-- What is known of a value before it is computed. -/
inductive Kind
  | text
  | flag
  | number
  /-- A number that can be one of spaces. -/
  | count
  /-- A list of texts. -/
  | names
  /-- A tuple of texts. -/
  | row
  /-- An object whose attributes are lists and tuples of texts. -/
  | nameLists
  | null
  | other
  deriving DecidableEq

namespace Kind

/-- Whether a value is a text. -/
def isText : Value → Bool
  | .string _ => true
  | _ => false

/-- Whether a number can be one of spaces. -/
def isCount (n : Number) : Bool :=
  match wholeWord n with
  | .ok i => decide (0 ≤ i)
  | .error _ => false

/-- Whether a value is a list or a tuple of texts. -/
def listsTexts : Value → Bool
  | .list .string items | .tuple items => items.all isText
  | _ => false

/-- Whether a value is of a kind. -/
def admits : Kind → Value → Bool
  | text, v => isText v
  | flag, .bool _ => true
  | number, .number _ => true
  | count, .number n => isCount n
  | names, .list .string items => items.all isText
  | row, .tuple items => items.all isText
  | nameLists, .object attributes => attributes.all fun a => listsTexts a.2
  | null, .null _ => true
  | other, _ => true
  | _, _ => false

/-- The kind of a constant. -/
def ofValue : Value → Kind
  | .string _ => text
  | .bool _ => flag
  | .number n => if isCount n then count else number
  | .null _ => null
  | _ => other

/-- The kind of the values of a type. -/
def ofType : ValueType → Kind
  | .string => text
  | .bool => flag
  | .number => number
  | .list .string => names
  | _ => other

/-- Whether values of the kind are numbers. -/
def isNumber : Kind → Bool
  | number | count => true
  | _ => false

/-- Whether values of the kind list texts. -/
def isList : Kind → Bool
  | names | row => true
  | _ => false

/-- The kind of what an operator makes. -/
def ofBinary? : BinaryOp → Kind → Kind → Option Kind
  | .equal, text, text | .notEqual, text, text => some flag
  | .greater, a, b | .greaterOrEqual, a, b | .less, a, b | .lessOrEqual, a, b =>
    if a.isNumber && b.isNumber then some flag else none
  | _, _, _ => none

/-- The kind of what a function of the library makes. -/
def ofCall? : String → List Kind → Option Kind
  | "indent", [count, text] => some text
  | "join", [text, names] => some text
  | "length", [k] => if k.isList then some number else none
  | "lower", [text] | "trimspace", [text] | "upper", [text] => some text
  | "replace", [text, text, text] => some text
  | _, _ => none

end Kind

/-- The kinds of variables. -/
abbrev Kinds := List (String × Kind)

namespace Expr

mutual

/-- The kind of an expression, if it can be told. -/
def kind? : Expr → Kinds → Option Kind
  | literal v, _ => some (.ofValue v)
  | template parts, vars => (kinds? parts vars).bind fun ks =>
    if ks.all (· == .text) then some .text else none
  | wrapped e, vars => kind? e vars
  | joined e, vars => if kind? e vars == some .row then some .text else none
  | reference root [], vars => vars.lookup root
  | call name args false, vars => (kinds? args vars).bind (Kind.ofCall? name)
  | conditional c a b, vars =>
    if kind? c vars == some .flag && kind? a vars == some .text && kind? b vars == some .text
    then some .text else none
  | binary op a b, vars =>
    (kind? a vars).bind fun k => (kind? b vars).bind fun l => Kind.ofBinary? op k l
  | parens e, vars => kind? e vars
  | tuple items, vars => (kinds? items vars).bind fun ks =>
    if ks.all (· == .text) then some .row else none
  | object items, vars => (itemKinds? items vars).bind fun ks =>
    if ks.all (fun k => k.1 == .text && k.2.isList) then some .nameLists else none
  | loop none name collection none value none false, vars => (kind? collection vars).bind fun k =>
    if k.isList && kind? value ((name, .text) :: vars) == some .text then some .row else none
  | _, _ => none

/-- The kinds of expressions. -/
def kinds? : List Expr → Kinds → Option (List Kind)
  | [], _ => some []
  | e :: es, vars => (kind? e vars).bind fun k => (kinds? es vars).map (k :: ·)

/-- The kinds of the keys and values of an object. -/
def itemKinds? : List (Expr × Expr) → Kinds → Option (List (Kind × Kind))
  | [], _ => some []
  | (k, v) :: items, vars => (kind? k vars).bind fun a => (kind? v vars).bind fun b =>
    (itemKinds? items vars).map ((a, b) :: ·)

end

end Expr

/-! ### Values of a kind -/

namespace Kind

variable {v : Value} {k : Kind}

theorem isText_iff : isText v = true ↔ ∃ s, v = .string s := by
  cases v <;> simp [isText]

theorem all_isText_iff {items : List Value} :
    items.all isText = true ↔ ∃ ss : List String, items = ss.map .string := by
  constructor
  · intro h
    induction items with
    | nil => exact ⟨[], rfl⟩
    | cons v items ih =>
      rw [List.all_cons, Bool.and_eq_true] at h
      obtain ⟨s, rfl⟩ := isText_iff.mp h.1
      obtain ⟨ss, rfl⟩ := ih h.2
      exact ⟨s :: ss, rfl⟩
  · rintro ⟨ss, rfl⟩
    simp [isText]

theorem admits_flag : flag.admits v = true ↔ ∃ b, v = .bool b := by
  cases v with
  | bool b => exact iff_of_true rfl ⟨b, rfl⟩
  | _ => exact iff_of_false Bool.false_ne_true (by simp)

theorem admits_of_isNumber (hk : k.isNumber) (h : k.admits v = true) : ∃ n, v = .number n := by
  cases v with
  | number n => exact ⟨n, rfl⟩
  | _ => cases k <;> first | exact absurd hk Bool.false_ne_true | exact absurd h Bool.false_ne_true

theorem admits_count : count.admits v = true ↔ ∃ n i, v = .number n ∧ wholeWord n = .ok i ∧
    0 ≤ i := by
  cases v with
  | number n =>
    change isCount n = true ↔ _
    rw [isCount]
    cases hn : wholeWord n <;> simp [hn]
  | _ => exact iff_of_false Bool.false_ne_true (by simp)

theorem admits_names : names.admits v = true ↔
    ∃ ss : List String, v = .list .string (ss.map .string) := by
  cases v with
  | list t items =>
    cases t with
    | string => exact all_isText_iff.trans (by simp)
    | _ => exact iff_of_false Bool.false_ne_true (by simp)
  | _ => exact iff_of_false Bool.false_ne_true (by simp)

theorem admits_row : row.admits v = true ↔ ∃ ss : List String, v = .tuple (ss.map .string) := by
  cases v with
  | tuple items => exact all_isText_iff.trans (by simp)
  | _ => exact iff_of_false Bool.false_ne_true (by simp)

theorem listsTexts_iff : listsTexts v = true ↔
    ∃ ss : List String, v = .list .string (ss.map .string) ∨ v = .tuple (ss.map .string) := by
  cases v with
  | list t items => cases t <;> simp [listsTexts, all_isText_iff, -List.all_eq_true]
  | _ => simp [listsTexts, all_isText_iff, -List.all_eq_true]

theorem listsTexts_of_isList (hk : k.isList) (h : k.admits v = true) : listsTexts v = true := by
  rw [listsTexts_iff]
  cases k <;> simp only [isList, Bool.false_eq_true] at hk
  · obtain ⟨ss, rfl⟩ := admits_names.mp h
    exact ⟨ss, .inl rfl⟩
  · obtain ⟨ss, rfl⟩ := admits_row.mp h
    exact ⟨ss, .inr rfl⟩

theorem admits_ofValue (v : Value) : (ofValue v).admits v = true := by
  cases v with
  | number n =>
    rw [ofValue]
    split
    · assumption
    · rfl
  | _ => rfl

/-- The value that stands for a missing one is of the kind of the type. -/
theorem admits_zero (t : ValueType) : (ofType t).admits (.zero t) = true := by
  unfold ofType
  split <;> rfl

theorem isText_of_coerceItems? : ∀ {items ws : List Value},
    Value.coerceItems? items .string = some ws → ws.all isText = true := by
  intro items
  induction items with
  | nil =>
    intro ws h
    rw [Value.coerceItems?, Option.some_inj] at h
    subst h
    rfl
  | cons v items ih =>
    intro ws h
    simp only [Value.coerceItems?, Option.bind_eq_bind, Option.bind_eq_some_iff, Option.pure_def,
      Option.some_inj] at h
    obtain ⟨w, hw, rest, hrest, rfl⟩ := h
    rw [List.all_cons, ih hrest, Bool.and_true]
    cases v <;> simp only [Value.coerce?, Option.some_inj, reduceCtorEq] at hw
    subst hw
    rfl

/-- A value that is accepted for a type is of the kind of the type. -/
theorem admits_of_coerce? {w : Value} {t : ValueType} (h : v.coerce? t = some w) :
    (ofType t).admits w = true := by
  unfold ofType
  split
  · cases v <;> simp only [Value.coerce?, Option.some_inj, reduceCtorEq] at h
    subst h
    rfl
  · cases v <;> simp only [Value.coerce?, Option.some_inj, reduceCtorEq] at h
    subst h
    rfl
  · cases v <;> simp only [Value.coerce?, Option.some_inj, reduceCtorEq] at h
    subst h
    rfl
  · cases v <;> simp only [Value.coerce?, Option.map_eq_some_iff, reduceCtorEq] at h
    all_goals
      obtain ⟨ws, hws, rfl⟩ := h
      exact isText_of_coerceItems? hws
  · rfl

end Kind

/-! ### Outcomes of a kind -/

/-- Any value is one of the dynamic type. -/
theorem convert?_dynamic (v : Value) : v.convert? .dynamic = some v := by
  unfold Value.convert?
  split
  · rfl
  · simp [ValueType.converts, Value.convertKnown?]

theorem unify?_string : ValueType.unify? .string .string = some .string := by
  simp [ValueType.unify?, ValueType.unifyAll?, ValueType.unifyDepth, ValueType.unifyWithin,
    ValueType.preferred?, ValueType.converts, ValueType.isList, ValueType.isSet, ValueType.isMap,
    ValueType.isTuple, ValueType.isObject]

/-- A value of a kind, and no faults. -/
structure Outcome.Is (o : Outcome) (k : Kind) : Prop where
  faults : o.faults = []
  value : k.admits o.value = true

namespace Outcome.Is

variable {o a b c : Outcome} {k l : Kind} {os : List Outcome}

theorem exists_eq (h : o.Is k) : ∃ v, o = ⟨v, []⟩ ∧ k.admits v = true := by
  obtain ⟨v, fs⟩ := o
  obtain ⟨rfl, hv⟩ := h
  exact ⟨v, rfl, hv⟩

theorem exists_text (h : o.Is .text) : ∃ s, o = ⟨.string s, []⟩ := by
  obtain ⟨v, rfl, hv⟩ := h.exists_eq
  obtain ⟨s, rfl⟩ := Kind.isText_iff.mp hv
  exact ⟨s, rfl⟩

theorem exists_texts (h : ∀ o ∈ os, o.Is .text) : ∃ ss : List String,
    os = ss.map fun s => ⟨.string s, []⟩ := by
  induction os with
  | nil => exact ⟨[], rfl⟩
  | cons o os ih =>
    obtain ⟨ho, hos⟩ := List.forall_mem_cons.mp h
    obtain ⟨s, rfl⟩ := ho.exists_text
    obtain ⟨ss, rfl⟩ := ih hos
    exact ⟨s :: ss, rfl⟩

/-- The parts of a text, one after another. -/
theorem foldl_add (ss : List String) : ∀ text : String,
    (ss.map fun s => (⟨.string s, []⟩ : Outcome)).foldl TextOutcome.add { text } =
      { text := ss.foldl (· ++ ·) text } := by
  induction ss with
  | nil => exact fun _ => rfl
  | cons s ss ih => exact fun text => ih (text ++ s)

theorem template (h : ∀ o ∈ os, o.Is .text) : (os.foldl TextOutcome.add {}).outcome.Is .text := by
  obtain ⟨ss, rfl⟩ := exists_texts h
  rw [foldl_add]
  exact ⟨rfl, rfl⟩

theorem joinItems_texts (ss : List String) : ∀ text : String,
    joinItems text [] (ss.map .string) = ⟨.text (ss.foldl (· ++ ·) text), []⟩ := by
  induction ss with
  | nil => exact fun _ => rfl
  | cons s ss ih => exact fun text => ih (text ++ s)

theorem joined (h : o.Is .row) : (joinedOutcome o).Is .text := by
  obtain ⟨v, rfl, hv⟩ := h.exists_eq
  obtain ⟨ss, rfl⟩ := Kind.admits_row.mp hv
  have hjoined := joinItems_texts ss ""
  rw [joinedOutcome]
  dsimp only
  rw [hjoined]
  exact ⟨rfl, rfl⟩

theorem conditional (hc : c.Is .flag) (ha : a.Is .text) (hb : b.Is .text) :
    (conditionalOutcome c a b).Is .text := by
  obtain ⟨v, rfl, hv⟩ := hc.exists_eq
  obtain ⟨x, rfl⟩ := Kind.admits_flag.mp hv
  obtain ⟨s, rfl⟩ := ha.exists_text
  obtain ⟨t, rfl⟩ := hb.exists_text
  have htype : branchType? (.string s) (.string t) = some .string := unify?_string
  rw [conditionalOutcome, htype]
  cases x
  · exact ⟨rfl, rfl⟩
  · exact ⟨rfl, rfl⟩

theorem binary {op : BinaryOp} (ha : a.Is k) (hb : b.Is l) {r : Kind}
    (h : Kind.ofBinary? op k l = some r) : (binaryOutcome op a b).Is r := by
  have hnumbers : ∀ {op}, (op = .greater ∨ op = .greaterOrEqual ∨ op = .less ∨
      op = .lessOrEqual) → (if k.isNumber && l.isNumber then some .flag else none) = some r →
      (binaryOutcome op a b).Is r := by
    intro op hop h
    split at h
    case isFalse => exact absurd h (by simp)
    case isTrue hkl =>
      obtain ⟨hk, hl⟩ := Bool.and_eq_true_iff.mp hkl
      obtain ⟨v, rfl, hv⟩ := ha.exists_eq
      obtain ⟨w, rfl, hw⟩ := hb.exists_eq
      obtain ⟨m, rfl⟩ := Kind.admits_of_isNumber hk hv
      obtain ⟨n, rfl⟩ := Kind.admits_of_isNumber hl hw
      obtain rfl := Option.some.inj h
      rcases hop with rfl | rfl | rfl | rfl <;> exact ⟨rfl, rfl⟩
  have htexts : ∀ {op}, (op = .equal ∨ op = .notEqual) → k = .text → l = .text →
      some .flag = some r → (binaryOutcome op a b).Is r := by
    rintro op hop rfl rfl h
    obtain ⟨s, rfl⟩ := ha.exists_text
    obtain ⟨t, rfl⟩ := hb.exists_text
    obtain rfl := Option.some.inj h
    rcases hop with rfl | rfl
    all_goals
      rw [binaryOutcome]
      dsimp only [operandType]
      rw [convert?_dynamic, convert?_dynamic]
      exact ⟨rfl, rfl⟩
  unfold Kind.ofBinary? at h
  split at h
  · exact htexts (by simp) rfl rfl h
  · exact htexts (by simp) rfl rfl h
  · exact hnumbers (by simp) h
  · exact hnumbers (by simp) h
  · exact hnumbers (by simp) h
  · exact hnumbers (by simp) h
  · exact absurd h (by simp)

theorem tuple (h : ∀ o ∈ os, o.Is .text) :
    Outcome.Is ⟨.tuple (os.map (·.value)), os.flatMap (·.faults)⟩ .row := by
  obtain ⟨ss, rfl⟩ := exists_texts h
  refine ⟨by simp, Kind.admits_row.mpr ⟨ss, ?_⟩⟩
  simp

/-! Calls -/

theorem allKnown_texts (ss : List String) : Value.allKnown (ss.map .string) = true := by
  induction ss with
  | nil => rfl
  | cons s ss ih => simpa [Value.allKnown, Value.isWhollyKnown] using ih

/-- A call whose arguments are of the types of the parameters. -/
theorem of_call {f : Function} {vs : List Value} {v : Value}
    (hcount : f.parameters.length ≤ os.length)
    (hrest : f.rest.isSome = true ∨ os.length ≤ f.parameters.length)
    (hargs : convertArguments f 0 os = (vs, [])) (hcall : f.call vs = .ok v)
    (hv : k.admits v = true) : (callOutcome f os).Is k := by
  have hmany : ¬ (f.rest.isNone && decide (os.length > f.parameters.length)) = true := by
    rcases hrest with hrest | hrest
    · simp [Option.isSome_iff_ne_none.mp hrest]
    · simp [Nat.not_lt.mpr hrest]
  rw [callOutcome, if_neg (Nat.not_lt.mpr hcount), if_neg hmany, hargs]
  simp only [List.isEmpty_nil, Bool.not_true, Bool.false_eq_true, if_false, hcall]
  exact ⟨rfl, hv⟩

theorem call_indent {n : Number} {i : Int} (hn : wholeWord n = .ok i) (hi : 0 ≤ i) (s : String) :
    indentFunction.call [.number n, .string s] = .ok (.text (indentLines i.toNat s)) := by
  change (wholeWord n).bind _ = _
  rw [hn]
  exact if_neg (Int.not_lt.mpr hi)

theorem call_join (s : String) (ss : List String) :
    joinFunction.call [.string s, .list .string (ss.map .string)] =
      .ok (.text (s.intercalate ss)) := by
  change joinFunction.run [.string s, .list .string (ss.map .string)] = _
  simp [joinFunction, Value.allKnown, Value.isWhollyKnown, allKnown_texts, Value.items?,
    Value.isNull]

theorem indent (ha : a.Is .count) (hb : b.Is .text) :
    (callOutcome indentFunction [a, b]).Is .text := by
  obtain ⟨v, rfl, hv⟩ := ha.exists_eq
  obtain ⟨n, i, rfl, hn, hi⟩ := Kind.admits_count.mp hv
  obtain ⟨s, rfl⟩ := hb.exists_text
  exact of_call (Nat.le_refl _) (.inr (Nat.le_refl _)) rfl (call_indent hn hi s) rfl

theorem join (ha : a.Is .text) (hb : b.Is .names) : (callOutcome joinFunction [a, b]).Is .text := by
  obtain ⟨s, rfl⟩ := ha.exists_text
  obtain ⟨v, rfl, hv⟩ := hb.exists_eq
  obtain ⟨ss, rfl⟩ := Kind.admits_names.mp hv
  exact of_call (Nat.le_succ _) (.inl rfl) rfl (call_join s ss) rfl

theorem length (hk : k.isList) (ha : a.Is k) : (callOutcome lengthFunction [a]).Is .number := by
  obtain ⟨v, rfl, hv⟩ := ha.exists_eq
  have htype : ((lengthFunction.parameter? 0).map (·.type) |>.getD .dynamic) = .dynamic := rfl
  have hargs : convertArguments lengthFunction 0 [⟨v, []⟩] = ([v], []) := by
    rw [convertArguments, convertArguments, htype, convert?_dynamic]
    rfl
  obtain ⟨ss, rfl | rfl⟩ := Kind.listsTexts_iff.mp (Kind.listsTexts_of_isList hk hv)
  · exact of_call (Nat.le_refl _) (.inr (Nat.le_refl _)) hargs rfl rfl
  · exact of_call (Nat.le_refl _) (.inr (Nat.le_refl _)) hargs rfl rfl

/-- A function of texts makes a text. -/
theorem textFunction_one {name : String} {f : List String → String} (ha : a.Is .text) :
    (callOutcome (textFunction name 1 f) [a]).Is .text := by
  obtain ⟨s, rfl⟩ := ha.exists_text
  exact of_call (Nat.le_refl _) (.inr (Nat.le_refl _)) rfl rfl rfl

theorem textFunction_three {name : String} {f : List String → String} (ha : a.Is .text)
    (hb : b.Is .text) (hc : c.Is .text) :
    (callOutcome (textFunction name 3 f) [a, b, c]).Is .text := by
  obtain ⟨s, rfl⟩ := ha.exists_text
  obtain ⟨t, rfl⟩ := hb.exists_text
  obtain ⟨u, rfl⟩ := hc.exists_text
  exact of_call (Nat.le_refl _) (.inr (Nat.le_refl _)) rfl rfl rfl

/-- **Calls of the library** with arguments of the right kinds. -/
theorem call {s : Scope} (hs : s.functions = some library) {name : String} {ks : List Kind}
    (h : List.Forall₂ Outcome.Is os ks) {r : Kind} (hr : Kind.ofCall? name ks = some r) :
    (callNamed s name os false).Is r := by
  have hfind : ∀ {f : Function}, library.find? (·.name == name) = some f →
      (callOutcome f os).Is r → (callNamed s name os false).Is r := by
    intro f hf hcall
    rw [callNamed, hs]
    dsimp only
    rw [hf]
    exact hcall
  unfold Kind.ofCall? at hr
  split at hr
  case h_1 =>
    obtain _ | ⟨ha, _ | ⟨hb, ⟨⟩⟩⟩ := h
    exact hfind rfl (Option.some.inj hr ▸ ha.indent hb)
  case h_2 =>
    obtain _ | ⟨ha, _ | ⟨hb, ⟨⟩⟩⟩ := h
    exact hfind rfl (Option.some.inj hr ▸ ha.join hb)
  case h_3 =>
    obtain _ | ⟨ha, ⟨⟩⟩ := h
    split at hr
    · rename_i hk
      exact hfind rfl (Option.some.inj hr ▸ ha.length hk)
    · exact absurd hr (by simp)
  case h_7 =>
    obtain _ | ⟨ha, _ | ⟨hb, _ | ⟨hc, ⟨⟩⟩⟩⟩ := h
    exact hfind rfl (Option.some.inj hr ▸ ha.textFunction_three hb hc)
  case h_8 => exact absurd hr (by simp)
  all_goals
    obtain _ | ⟨ha, ⟨⟩⟩ := h
    exact hfind rfl (Option.some.inj hr ▸ ha.textFunction_one)

end Outcome.Is

/-! ### Objects and loops -/

/-- What has been collected of an object is known, and lists texts. -/
structure ObjectOutcome.Lists (b : ObjectOutcome) : Prop where
  known : b.known = true
  faults : b.faults = []
  entries : ∀ e ∈ b.entries, Kind.listsTexts e.2 = true

theorem ObjectOutcome.Lists.add {b : ObjectOutcome} (hb : b.Lists) {k v : Outcome} {l : Kind}
    (hk : k.Is .text) (hl : l.isList) (hv : v.Is l) : (b.add k v).Lists := by
  obtain ⟨s, rfl⟩ := hk.exists_text
  obtain ⟨w, rfl, hw⟩ := hv.exists_eq
  have hadd : b.add ⟨.string s, []⟩ ⟨w, []⟩ =
      { b with entries := b.entries ++ [(s, w)], faults := b.faults ++ [] ++ [] } := rfl
  rw [hadd, hb.faults]
  refine ⟨hb.known, rfl, List.forall_mem_append.mpr ⟨hb.entries, ?_⟩⟩
  exact List.forall_mem_singleton.mpr (Kind.listsTexts_of_isList hl hw)

theorem ObjectOutcome.Lists.outcome {b : ObjectOutcome} (hb : b.Lists) :
    b.outcome.Is .nameLists := by
  refine ⟨hb.faults, ?_⟩
  rw [ObjectOutcome.outcome, if_pos hb.known]
  refine List.all_eq_true.mpr fun e he => ?_
  obtain ⟨d, hd, rfl⟩ := List.mem_map.mp (Value.mem_of_mem_sortNamed he)
  exact hb.entries d hd

/-- The items of an object, one after another. -/
theorem Outcome.Is.object {os : List (Outcome × Outcome)}
    (h : ∀ o ∈ os, o.1.Is .text ∧ ∃ l : Kind, l.isList ∧ o.2.Is l) :
    ((os.foldl (fun b (k, v) => b.add k v) ({} : ObjectOutcome)).outcome).Is .nameLists := by
  have hfold : ∀ {b : ObjectOutcome}, b.Lists → (os.foldl (fun b (k, v) => b.add k v) b).Lists := by
    induction os with
    | nil => exact fun hb => hb
    | cons o os ih =>
      intro b hb
      obtain ⟨⟨hk, l, hl, hv⟩, hos⟩ := List.forall_mem_cons.mp h
      exact ih hos (hb.add hk hl hv)
  exact (hfold ⟨rfl, rfl, fun _ he => absurd he List.not_mem_nil⟩).outcome

/-- The rounds of a loop that makes a text in each. -/
theorem foldl_round {value : Value → Value → Outcome} :
    ∀ {es : List (Value × Value)}, (∀ e ∈ es, (value e.1 e.2).Is .text) → ∀ ss : List String,
    ∃ ss' : List String, es.foldl (fun l e => l.round false none none (value e.1 e.2))
      ({ items := ss.map .string } : LoopOutcome) = { items := ss'.map .string } := by
  intro es
  induction es with
  | nil => exact fun _ ss => ⟨ss, rfl⟩
  | cons e es ih =>
    intro h ss
    obtain ⟨he, hes⟩ := List.forall_mem_cons.mp h
    obtain ⟨s, hs⟩ := he.exists_text
    obtain ⟨ss', hss'⟩ := ih hes (ss ++ [s])
    refine ⟨ss', ?_⟩
    rw [List.foldl_cons, ← hss', hs, List.map_append]
    rfl

theorem Outcome.Is.loop {c : Outcome} {k : Kind} (hk : k.isList) (hc : c.Is k)
    {value : Value → Value → Outcome} (hvalue : ∀ i s, (value i (.string s)).Is .text) :
    (loopOutcome c false false (fun _ _ => none) (fun _ _ => none) value).Is .row := by
  obtain ⟨v, rfl, hv⟩ := hc.exists_eq
  obtain ⟨ss, hss⟩ := Kind.listsTexts_iff.mp (Kind.listsTexts_of_isList hk hv)
  let es : List (Value × Value) := (ss.map Value.string).zipIdx.map fun p => (.int p.2, p.1)
  have hes : ∀ e ∈ es, (value e.1 e.2).Is .text := by
    intro e he
    obtain ⟨⟨w, i⟩, hw, rfl⟩ := List.mem_map.mp he
    obtain ⟨s, _, rfl⟩ := List.mem_map.mp (List.fst_mem_of_mem_zipIdx hw)
    exact hvalue _ s
  obtain ⟨ss', hss'⟩ := foldl_round hes []
  have hloop : loopOutcome ⟨v, []⟩ false false (fun _ _ => none) (fun _ _ => none) value =
      (es.foldl (fun l e => l.round false none none (value e.1 e.2))
        ({} : LoopOutcome)).outcome false false := by
    rcases hss with rfl | rfl <;> rfl
  rw [hloop]
  refine ⟨congrArg LoopOutcome.faults hss', ?_⟩
  rw [show ({} : LoopOutcome) = { items := [].map Value.string } from rfl, hss']
  exact Kind.admits_row.mpr ⟨ss', rfl⟩

/-! ### Expressions of a kind -/

/-- A scope with the functions of the library, and with values of the given
kinds. -/
structure Scope.Suits (s : Scope) (vars : Kinds) : Prop where
  functions : s.functions = some library
  lookup : ∀ {n k}, vars.lookup n = some k → (lookupVariable s n).Is k

/-- A scope suits a loop over texts. -/
theorem Scope.Suits.enterLoop {s : Scope} {vars : Kinds} (h : s.Suits vars) (name : String)
    (i : Value) (text : String) :
    (s.enterLoop none name i (.string text)).Suits ((name, .text) :: vars) := by
  refine ⟨h.functions, fun {n k} hn => ?_⟩
  rw [Scope.enterLoop, lookupVariable, Scope.bind]
  dsimp only
  rw [List.lookup_cons] at hn ⊢
  cases hname : n == name with
  | true =>
    rw [hname] at hn
    exact Option.some.inj hn ▸ ⟨rfl, rfl⟩
  | false =>
    rw [hname] at hn
    have hv := h.lookup hn
    rw [lookupVariable] at hv
    cases hb : s.bindings with
    | none =>
      rw [hb] at hv
      exact absurd hv.faults (by simp [Outcome.fault])
    | some b =>
      rw [hb] at hv
      exact hv

namespace Expr

theorem forall_is_text {os : List Outcome} {ks : List Kind} (h : List.Forall₂ Outcome.Is os ks)
    (hall : ks.all (· == .text) = true) : ∀ o ∈ os, o.Is .text := by
  induction h with
  | nil => exact fun _ ho => absurd ho List.not_mem_nil
  | cons ho _ ih =>
    rw [List.all_cons, Bool.and_eq_true, beq_iff_eq] at hall
    exact List.forall_mem_cons.mpr ⟨hall.1 ▸ ho, ih hall.2⟩

theorem forall_is_item {os : List (Outcome × Outcome)} {ks : List (Kind × Kind)}
    (h : List.Forall₂ (fun o k => o.1.Is k.1 ∧ o.2.Is k.2) os ks)
    (hall : ks.all (fun k => k.1 == .text && k.2.isList) = true) :
    ∀ o ∈ os, o.1.Is .text ∧ ∃ l : Kind, l.isList ∧ o.2.Is l := by
  induction h with
  | nil => exact fun _ ho => absurd ho List.not_mem_nil
  | @cons o k _ _ ho _ ih =>
    simp only [List.all_cons, Bool.and_eq_true, beq_iff_eq] at hall
    exact List.forall_mem_cons.mpr ⟨⟨hall.1.1 ▸ ho.1, k.2, hall.1.2, ho.2⟩, ih hall.2⟩

mutual

/-- **An expression that has a kind has a value of that kind**, without faults,
in every scope with values of the given kinds. -/
theorem eval_is : (e : Expr) → {vars : Kinds} → {k : Kind} → {s : Scope} →
    e.kind? vars = some k → s.Suits vars → (e.eval s).Is k
  | literal v, _, _, _, h, _ => by
    rw [kind?, Option.some_inj] at h
    exact h ▸ ⟨rfl, Kind.admits_ofValue v⟩
  | template parts, _, _, _, h, hs => by
    rw [kind?, Option.bind_eq_some_iff] at h
    obtain ⟨ks, hks, h⟩ := h
    obtain ⟨hall, h⟩ := Option.ite_none_right_eq_some.mp h
    rw [eval]
    exact Option.some.inj h ▸ .template (forall_is_text (evalList_is parts hks hs) hall)
  | wrapped e, _, _, _, h, hs => by
    rw [eval]
    exact eval_is e h hs
  | joined e, _, _, _, h, hs => by
    rw [kind?] at h
    obtain ⟨he, h⟩ := Option.ite_none_right_eq_some.mp h
    rw [eval]
    exact Option.some.inj h ▸ (eval_is e (beq_iff_eq.mp he) hs).joined
  | reference root [], _, _, _, h, hs => by
    rw [kind?] at h
    obtain ⟨v, hv, hk⟩ := (hs.lookup h).exists_eq
    rw [eval, hv]
    exact ⟨rfl, hk⟩
  | call name args false, _, _, _, h, hs => by
    rw [kind?, Option.bind_eq_some_iff] at h
    obtain ⟨ks, hks, h⟩ := h
    rw [eval]
    exact .call hs.functions (evalList_is args hks hs) h
  | conditional c a b, _, _, _, h, hs => by
    rw [kind?] at h
    obtain ⟨hcab, h⟩ := Option.ite_none_right_eq_some.mp h
    simp only [Bool.and_eq_true, beq_iff_eq] at hcab
    obtain ⟨⟨hc, ha⟩, hb⟩ := hcab
    rw [eval]
    exact Option.some.inj h ▸ (eval_is c hc hs).conditional (eval_is a ha hs) (eval_is b hb hs)
  | binary op a b, _, _, _, h, hs => by
    rw [kind?, Option.bind_eq_some_iff] at h
    obtain ⟨k, hk, h⟩ := h
    obtain ⟨l, hl, h⟩ := Option.bind_eq_some_iff.mp h
    rw [eval]
    exact (eval_is a hk hs).binary (eval_is b hl hs) h
  | parens e, _, _, _, h, hs => by
    rw [eval]
    exact eval_is e h hs
  | tuple items, _, _, _, h, hs => by
    rw [kind?, Option.bind_eq_some_iff] at h
    obtain ⟨ks, hks, h⟩ := h
    obtain ⟨hall, h⟩ := Option.ite_none_right_eq_some.mp h
    rw [eval]
    exact Option.some.inj h ▸ .tuple (forall_is_text (evalList_is items hks hs) hall)
  | object items, _, _, _, h, hs => by
    rw [kind?, Option.bind_eq_some_iff] at h
    obtain ⟨ks, hks, h⟩ := h
    obtain ⟨hall, h⟩ := Option.ite_none_right_eq_some.mp h
    rw [eval]
    exact Option.some.inj h ▸ .object (forall_is_item (evalItems_is items hks hs) hall)
  | loop none name collection none value none false, _, _, _, h, hs => by
    rw [kind?, Option.bind_eq_some_iff] at h
    obtain ⟨k, hk, h⟩ := h
    obtain ⟨hvalue, h⟩ := Option.ite_none_right_eq_some.mp h
    rw [Bool.and_eq_true, beq_iff_eq] at hvalue
    rw [eval]
    exact Option.some.inj h ▸ (eval_is collection hk hs).loop hvalue.1
      fun i t => eval_is value hvalue.2 (hs.enterLoop name i t)
  | reference _ (_ :: _), _, _, _, h, _ => absurd h (by simp [kind?])
  | relative .., _, _, _, h, _ => absurd h (by simp [kind?])
  | call _ _ true, _, _, _, h, _ => absurd h (by simp [kind?])
  | unary .., _, _, _, h, _ => absurd h (by simp [kind?])
  | loop (some _) _ _ _ _ _ _, _, _, _, h, _ => absurd h (by simp [kind?])
  | loop none _ _ (some _) _ _ _, _, _, _, h, _ => absurd h (by simp [kind?])
  | loop none _ _ none _ (some _) _, _, _, _, h, _ => absurd h (by simp [kind?])
  | loop none _ _ none _ none true, _, _, _, h, _ => absurd h (by simp [kind?])
  | index .., _, _, _, h, _ => absurd h (by simp [kind?])
  | splat .., _, _, _, h, _ => absurd h (by simp [kind?])
  | item, _, _, _, h, _ => absurd h (by simp [kind?])
  | ambiguousKey _, _, _, _, h, _ => absurd h (by simp [kind?])

theorem evalList_is : (es : List Expr) → {vars : Kinds} → {ks : List Kind} → {s : Scope} →
    kinds? es vars = some ks → s.Suits vars → List.Forall₂ Outcome.Is (evalList es s) ks
  | [], _, _, _, h, _ => by
    rw [kinds?, Option.some_inj] at h
    exact h ▸ .nil
  | e :: es, _, _, _, h, hs => by
    rw [kinds?, Option.bind_eq_some_iff] at h
    obtain ⟨k, hk, h⟩ := h
    obtain ⟨ks, hks, rfl⟩ := Option.map_eq_some_iff.mp h
    exact .cons (eval_is e hk hs) (evalList_is es hks hs)

theorem evalItems_is : (items : List (Expr × Expr)) → {vars : Kinds} →
    {ks : List (Kind × Kind)} → {s : Scope} → itemKinds? items vars = some ks → s.Suits vars →
    List.Forall₂ (fun o k => o.1.Is k.1 ∧ o.2.Is k.2) (evalItems items s) ks
  | [], _, _, _, h, _ => by
    rw [itemKinds?, Option.some_inj] at h
    exact h ▸ .nil
  | (k, v) :: items, _, _, _, h, hs => by
    rw [itemKinds?, Option.bind_eq_some_iff] at h
    obtain ⟨a, ha, h⟩ := h
    obtain ⟨b, hb, h⟩ := Option.bind_eq_some_iff.mp h
    obtain ⟨ks, hks, rfl⟩ := Option.map_eq_some_iff.mp h
    exact .cons ⟨eval_is k ha hs, eval_is v hb hs⟩ (evalItems_is items hks hs)

end

end Expr

end SolidityCanvas.Config
