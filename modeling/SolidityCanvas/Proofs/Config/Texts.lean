/-
What expressions spell.

Evaluated in a scope, an expression of a template yields a value or spells a text up to
its normal form (`Expr.Yields`, `Expr.Spells`).  Each form that texts are put together
from is told by what its parts spell: templates and joined loops by all of them one
after another (`spells_template`, `spells_loop`), conditionals by one of the branches
(`spells_conditional`), calls by what the function makes of its arguments.

Expressions of these forms can be compared (`Expr.agrees`, `Expr.eq_of_agrees`).
-/
import SolidityCanvas.Proofs.Config.Kinds
import SolidityCanvas.Proofs.Number.Rounding
import SolidityCanvas.Proofs.Text.Joined

namespace SolidityCanvas

/-! ### Joined texts -/

namespace Text

/-- Texts that have the normal forms of others, joined. -/
theorem normalize_join_congr {ts us : List String}
    (h : List.Forall₂ (fun t u => normalize t = normalize u) ts us) :
    normalize (String.join ts) = normalize (String.join us) := by
  induction h with
  | nil => rfl
  | cons h _ ih =>
    rw [String.join_cons, String.join_cons]
    exact normalize_append_congr h ih

end Text

/-- A number of things is greater than zero if there are any. -/
theorem Number.ofInt_greater_zero (n precision : Nat) :
    ((ofInt n).compare (.finite (Binary.zero false precision)) == .gt) = decide (0 < n) := by
  rcases Nat.eq_zero_or_pos n with rfl | hn
  · rfl
  obtain ⟨m, k, hm, rfl⟩ := exists_odd hn.ne'
  have hodd : ofInt ((m * 2 ^ k : Nat) : Int) = .finite ⟨false, m, k, 64⟩ := by
    have hsign : decide (((m * 2 ^ k : Nat) : Int) < 0) = false :=
      decide_eq_false (Int.not_lt.mpr (Int.natCast_nonneg _))
    rw [ofInt, hsign, Int.natAbs_natCast, Binary.normal_odd hm, zero_add]
  have hmin : min (k : Int) 0 = 0 := min_eq_right (Int.natCast_nonneg k)
  rw [hodd, decide_eq_true hn, beq_iff_eq]
  change Ord.compare ((m <<< ((k : Int) - min (k : Int) 0).toNat : Nat) : Int)
    ((0 <<< ((0 : Int) - min (k : Int) 0).toNat : Nat) : Int) = _
  rw [hmin, Int.sub_zero, Int.toNat_natCast, Nat.shiftLeft_eq, Nat.zero_shiftLeft,
    compare_gt_iff_gt]
  exact mod_cast hn

namespace Config

open Text

/-! ### Comparing expressions -/

namespace Expr

mutual

/-- Whether two expressions are the same, of the forms that texts are put together
from. -/
def agrees : Expr → Expr → Bool
  | literal (.string a), literal (.string b) => a == b
  | literal (.number a), literal (.number b) => a == b
  | literal (.null .dynamic), literal (.null .dynamic) => true
  | template as, template bs => agreesAll as bs
  | joined e, joined f => agrees e f
  | reference a [], reference b [] => a == b
  | call f as false, call g bs false => f == g && agreesAll as bs
  | conditional c a b, conditional d x y => agrees c d && agrees a x && agrees b y
  | binary f a b, binary g x y => f == g && agrees a x && agrees b y
  | loop none v c none e none false, loop none w d none f none false =>
    v == w && agrees c d && agrees e f
  | _, _ => false

def agreesAll : List Expr → List Expr → Bool
  | [], [] => true
  | e :: es, f :: fs => agrees e f && agreesAll es fs
  | _, _ => false

end

/-- Expressions that agree are the same, and so are lists of them. -/
theorem eq_of_agrees_and : (∀ e f : Expr, e.agrees f = true → e = f) ∧
    ∀ es fs : List Expr, agreesAll es fs = true → es = fs := by
  apply agrees.mutual_induct (fun e f => e.agrees f = true → e = f)
    fun es fs => agreesAll es fs = true → es = fs
  all_goals
    intros
    simp_all [agrees, agreesAll]

theorem eq_of_agrees {e f : Expr} (h : e.agrees f = true) : e = f := eq_of_agrees_and.1 e f h

/-! ### Values and texts of expressions -/

/-- The expression has the value, without faults. -/
def Yields (s : Scope) (e : Expr) (v : Value) : Prop := e.eval s = ⟨v, []⟩

/-- The expression has a text with the normal form of this one, without faults. -/
def Spells (s : Scope) (e : Expr) (t : String) : Prop :=
  ∃ u, e.Yields s (.string u) ∧ normalize u = normalize t

variable {s : Scope} {e a b c : Expr} {es : List Expr} {v : Value} {t u : String}
  {ts us : List String}

theorem Yields.spells (h : e.Yields s (.string t)) : e.Spells s t := ⟨t, h, rfl⟩

theorem Yields.spells_text (h : e.Yields s (.text t)) : e.Spells s t :=
  ⟨normalize t, h, normalize_normalize t⟩

theorem yields_literal (s : Scope) (v : Value) : (literal v).Yields s v := rfl

theorem yields_reference {name : String} (h : lookupVariable s name = ⟨v, []⟩) :
    (reference name []).Yields s v := by
  rw [Yields, eval, h]
  rfl

theorem evalList_of_yields (h : List.Forall₂ (fun e u => e.Yields s (.string u)) es us) :
    evalList es s = us.map fun u => ⟨.string u, []⟩ := by
  induction h with
  | nil => rfl
  | cons h _ ih => rw [evalList, h, ih, List.map_cons]

/-- The parts of a text, one after another. -/
theorem yields_template (h : List.Forall₂ (fun e u => e.Yields s (.string u)) es us) :
    (template es).Yields s (.text (String.join us)) := by
  rw [Yields, eval, evalList_of_yields h, Outcome.Is.foldl_add]
  rfl

theorem exists_yields (h : List.Forall₂ (Spells s) es ts) : ∃ us,
    List.Forall₂ (fun e u => e.Yields s (.string u)) es us ∧
      List.Forall₂ (fun u t => normalize u = normalize t) us ts := by
  induction h with
  | nil => exact ⟨[], .nil, .nil⟩
  | cons h _ ih =>
    obtain ⟨u, hu, hut⟩ := h
    obtain ⟨us, hus, huts⟩ := ih
    exact ⟨u :: us, .cons hu hus, .cons hut huts⟩

/-- **A template has the text that its parts spell**, one after another. -/
theorem yields_template_of_spells (h : List.Forall₂ (Spells s) es ts) :
    (template es).Yields s (.text (String.join ts)) := by
  obtain ⟨us, hus, huts⟩ := exists_yields h
  rw [Value.text, ← normalize_join_congr huts]
  exact yields_template hus

theorem spells_template (h : List.Forall₂ (Spells s) es ts) :
    (template es).Spells s (String.join ts) := (yields_template_of_spells h).spells_text

/-- **A conditional spells the branch that is taken.** -/
theorem spells_conditional {x : Bool} (hc : c.Yields s (.bool x)) (ha : a.Spells s t)
    (hb : b.Spells s u) : (conditional c a b).Spells s (if x then t else u) := by
  obtain ⟨t', ha, ht⟩ := ha
  obtain ⟨u', hb, hu⟩ := hb
  have htype : branchType? (.string t') (.string u') = some .string := unify?_string
  refine ⟨if x then t' else u', ?_, ?_⟩
  · rw [Yields, eval, hc, ha, hb, conditionalOutcome, htype]
    cases x
    · rfl
    · rfl
  · cases x
    · exact hu
    · exact ht

/-! Loops -/

/-- The rounds of a loop that has a text in each. -/
theorem foldl_round_texts (value : Value → Value → Outcome) {entries : List (Value × Value)}
    (h : List.Forall₂ (fun e u => value e.1 e.2 = ⟨.string u, []⟩) entries us) :
    ∀ done : List String, entries.foldl (fun l e => l.round false none none (value e.1 e.2))
      ({ items := done.map .string } : LoopOutcome) = { items := (done ++ us).map .string } := by
  induction h with
  | nil => simp
  | @cons e u entries us h _ ih =>
    intro done
    have hround := ih (done ++ [u])
    rw [List.append_assoc, List.singleton_append] at hround
    rw [List.foldl_cons, h, ← hround, List.map_append]
    rfl

theorem exists_rounds (value : Value → Value → Outcome) {f : String → String}
    (h : ∀ i, ∀ t ∈ ts, ∃ u, value i (.string t) = ⟨.string u, []⟩ ∧
      normalize u = normalize (f t)) (k : Nat) :
    ∃ us, List.Forall₂ (fun p u => value p.1 p.2 = ⟨.string u, []⟩)
        (((ts.map Value.string).zipIdx k).map fun p => (Value.int p.2, p.1)) us ∧
      List.Forall₂ (fun u t => normalize u = normalize t) us (ts.map f) := by
  induction ts generalizing k with
  | nil => exact ⟨[], .nil, .nil⟩
  | cons t ts ih =>
    obtain ⟨u, hu, hut⟩ := h (.int k) t List.mem_cons_self
    obtain ⟨us, hus, huts⟩ := ih (fun i t ht => h i t (List.mem_cons_of_mem _ ht)) (k + 1)
    exact ⟨u :: us, .cons hu hus, .cons hut huts⟩

/-- **A joined loop spells what it spells for each text of the list**, one after
another. -/
theorem spells_loop {name : String} {f : String → String}
    (hlist : c.Yields s (.list .string (ts.map .string)))
    (h : ∀ i, ∀ t ∈ ts, e.Spells (s.enterLoop none name i (.string t)) (f t)) :
    (joined (loop none name c none e none false)).Spells s (String.join (ts.map f)) := by
  let value : Value → Value → Outcome := fun i v => e.eval (s.enterLoop none name i v)
  obtain ⟨us, hus, huts⟩ := exists_rounds value h 0
  have hloop : (Expr.loop none name c none e none false).Yields s (.tuple (us.map .string)) := by
    have hrounds := foldl_round_texts value hus []
    rw [List.map_nil] at hrounds
    rw [Yields, eval, hlist]
    exact congrArg (LoopOutcome.outcome · false false) hrounds
  refine ⟨normalize (String.join us), ?_,
    (normalize_normalize _).trans (normalize_join_congr huts)⟩
  rw [Yields, eval, hloop]
  exact Outcome.Is.joinItems_texts us ""

/-! Operators -/

theorem yields_equal (ha : a.Yields s (.string t)) (hb : b.Yields s (.string u)) :
    (binary .equal a b).Yields s (.bool (t == u)) := by
  rw [Yields, eval, ha, hb, binaryOutcome]
  dsimp only [operandType]
  rw [convert?_dynamic, convert?_dynamic]
  rfl

theorem yields_notEqual (ha : a.Yields s (.string t)) (hb : b.Yields s (.string u)) :
    (binary .notEqual a b).Yields s (.bool (t != u)) := by
  rw [Yields, eval, ha, hb, binaryOutcome]
  dsimp only [operandType]
  rw [convert?_dynamic, convert?_dynamic]
  rfl

/-! Calls -/

theorem yields_call {f : Function} {name : String} {os : List Outcome} {vs : List Value}
    (hs : s.functions = some library) (hf : library.find? (·.name == name) = some f)
    (hes : evalList es s = os) (hcount : f.parameters.length ≤ os.length)
    (hrest : f.rest.isSome = true ∨ os.length ≤ f.parameters.length)
    (hargs : convertArguments f 0 os = (vs, [])) (hcall : f.call vs = .ok v) :
    (call name es false).Yields s v := by
  have hmany : ¬(f.rest.isNone && decide (os.length > f.parameters.length)) = true := by
    rcases hrest with hrest | hrest
    · simp [Option.isSome_iff_ne_none.mp hrest]
    · simp [Nat.not_lt.mpr hrest]
  rw [Yields, eval, hes, callNamed, hs]
  dsimp only
  rw [hf]
  simp only [Bool.false_eq_true, if_false]
  rw [callOutcome, if_neg (Nat.not_lt.mpr hcount), if_neg hmany, hargs]
  simp only [List.isEmpty_nil, Bool.not_true, Bool.false_eq_true, if_false, hcall]

section

variable (hs : s.functions = some library)
include hs

theorem yields_join (ha : a.Yields s (.string t))
    (hb : b.Yields s (.list .string (ts.map .string))) :
    (call "join" [a, b] false).Yields s (.text (t.intercalate ts)) := by
  have hes : evalList [a, b] s = [⟨.string t, []⟩, ⟨.list .string (ts.map .string), []⟩] := by
    rw [evalList, evalList, evalList, ha, hb]
  exact yields_call hs rfl hes (Nat.le_succ _) (.inl rfl) rfl (Outcome.Is.call_join t ts)

theorem yields_replace (ha : a.Yields s (.string t)) (hb : b.Yields s (.string u)) {r : String}
    (hc : c.Yields s (.string r)) :
    (call "replace" [a, b, c] false).Yields s (.text (replaceAll u r t)) := by
  have hes : evalList [a, b, c] s = [⟨.string t, []⟩, ⟨.string u, []⟩, ⟨.string r, []⟩] := by
    rw [evalList, evalList, evalList, evalList, ha, hb, hc]
  exact yields_call hs rfl hes (Nat.le_refl _) (.inr (Nat.le_refl _)) rfl rfl

theorem yields_indent {n : Number} {i : Int} (hn : wholeWord n = .ok i) (hi : 0 ≤ i)
    (ha : a.Yields s (.number n)) (hb : b.Yields s (.string t)) :
    (call "indent" [a, b] false).Yields s (.text (indentLines i.toNat t)) := by
  have hes : evalList [a, b] s = [⟨.number n, []⟩, ⟨.string t, []⟩] := by
    rw [evalList, evalList, evalList, ha, hb]
  exact yields_call hs rfl hes (Nat.le_refl _) (.inr (Nat.le_refl _)) rfl
    (Outcome.Is.call_indent hn hi t)

theorem yields_length (ha : a.Yields s (.list .string (ts.map .string))) :
    (call "length" [a] false).Yields s (.int ts.length) := by
  have hes : evalList [a] s = [⟨.list .string (ts.map .string), []⟩] := by
    rw [evalList, evalList, ha]
  have htype : ((lengthFunction.parameter? 0).map (·.type) |>.getD .dynamic) = .dynamic := rfl
  have hargs : convertArguments lengthFunction 0 [⟨.list .string (ts.map .string), []⟩] =
      ([.list .string (ts.map .string)], []) := by
    rw [convertArguments, convertArguments, htype, convert?_dynamic]
    rfl
  have hcall : lengthFunction.call [.list .string (ts.map .string)] = .ok (.int ts.length) := by
    change Except.ok (Value.int (ts.map Value.string).length) = _
    rw [List.length_map]
  exact yields_call hs rfl hes (Nat.le_refl _) (.inr (Nat.le_refl _)) hargs hcall

end

/-- A number of items is compared with zero. -/
theorem yields_greater_zero {n precision : Nat} (ha : a.Yields s (.int n)) :
    (binary .greater a (literal (.number (.finite (Binary.zero false precision))))).Yields s
      (.bool (decide (0 < n))) := by
  rw [Yields, eval, ha, ← Number.ofInt_greater_zero n precision]
  rfl

end Expr

end Config

end SolidityCanvas
