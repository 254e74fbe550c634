/-
The calls in an expression.

`Expr.children` are the parts of an expression, all of them; `Expr.Contains` is
what can be reached through them, and `Expr.Calls` says that one of these nodes
is a call of a function.  `Expr.calledFunctions` is a walk of its own over the
same tree.  It leaves some parts out (`Expr.hidden`): the keys of objects and
the values that are stepped into.

* `Expr.calls_of_mem_calledFunctions`: the walk names only functions that are
  called;
* `Expr.calls_iff`: a function that is called is named by the walk or called in
  a part that the walk leaves out;
* `functionNames_exact_iff`: hence the summary of some expressions is exact if
  and only if it happens to name what is called in the parts left out.
-/
import Mathlib.Logic.Relation
import SolidityCanvas.Config.Analysis
import SolidityCanvas.Proofs.Text.Distinct

namespace SolidityCanvas.Config

namespace Expr

/-- The parts of an expression. -/
def children : Expr → List Expr
  | literal _ | item | reference _ _ => []
  | template parts | tuple parts => parts
  | wrapped e | joined e | relative e _ | unary _ e | parens e | ambiguousKey e => [e]
  | call _ args _ => args
  | conditional c t f => [c, t, f]
  | binary _ l r | index l r | splat l r => [l, r]
  | object items => items.map (·.1) ++ items.map (·.2)
  | loop _ _ collection key value condition _ =>
    collection :: key.toList ++ value :: condition.toList

/-- The parts that the walk over called functions leaves out. -/
def hidden : Expr → List Expr
  | relative e _ | ambiguousKey e => [e]
  | object items => items.map (·.1)
  | _ => []

/-- The parts that the walk goes into. -/
def visited : Expr → List Expr
  | relative _ _ | ambiguousKey _ => []
  | object items => items.map (·.2)
  | e => e.children

variable {e k : Expr} {n : String}

theorem mem_children : k ∈ e.children ↔ k ∈ e.hidden ∨ k ∈ e.visited := by
  cases e <;> simp [children, hidden, visited]

/-- The tree of an expression has a node. -/
def Contains (e k : Expr) : Prop := Relation.ReflTransGen (fun a b => b ∈ a.children) e k

/-- The walk comes to a node. -/
def Reaches (e k : Expr) : Prop := Relation.ReflTransGen (fun a b => b ∈ a.visited) e k

/-- A function is called somewhere in an expression. -/
def Calls (e : Expr) (n : String) : Prop := ∃ args expand, e.Contains (call n args expand)

theorem Reaches.contains (h : e.Reaches k) : e.Contains k :=
  Relation.ReflTransGen.mono (fun _ _ hk => mem_children.mpr (.inr hk)) _ _ h

theorem Contains.calls (h : e.Contains k) (hk : k.Calls n) : e.Calls n := by
  obtain ⟨args, expand, hcall⟩ := hk
  exact ⟨args, expand, h.trans hcall⟩

theorem calls_of_mem_children (h : k ∈ e.children) (hk : k.Calls n) : e.Calls n :=
  Contains.calls (.single h) hk

theorem calls_call (n : String) (args : List Expr) (expand : Bool) : (call n args expand).Calls n :=
  ⟨args, expand, .refl⟩

/-- A call is the expression itself or in one of its parts. -/
theorem Calls.cases (h : e.Calls n) :
    (∃ args expand, e = call n args expand) ∨ ∃ k ∈ e.children, k.Calls n := by
  obtain ⟨args, expand, hcall⟩ := h
  obtain rfl | ⟨k, hk, hcall⟩ := hcall.cases_head
  · exact .inl ⟨args, expand, rfl⟩
  · exact .inr ⟨k, hk, args, expand, hcall⟩

/-! ### The walk -/

attribute [local simp] calledFunctions calledInList calledInItems calledInOption

theorem mem_calledInList {es : List Expr} :
    n ∈ calledInList es ↔ ∃ e ∈ es, n ∈ e.calledFunctions := by
  induction es with
  | nil => simp
  | cons e es ih => simp [ih]

theorem mem_calledInItems {items : List (Expr × Expr)} :
    n ∈ calledInItems items ↔ ∃ i ∈ items, n ∈ i.2.calledFunctions := by
  induction items with
  | nil => simp
  | cons i items ih => simp [ih]

theorem mem_calledInOption {o : Option Expr} :
    n ∈ calledInOption o ↔ ∃ e ∈ o, n ∈ e.calledFunctions := by
  cases o <;> simp

/-- **A step of the walk.**  It names the function of a call, and what is named
in the parts that it goes into. -/
theorem mem_calledFunctions : n ∈ e.calledFunctions ↔
    (∃ args expand, e = call n args expand) ∨ ∃ k ∈ e.visited, n ∈ k.calledFunctions := by
  cases e with
  | call name args expand =>
    simp only [calledFunctions, List.mem_cons, mem_calledInList, visited, children, call.injEq]
    constructor
    · rintro (rfl | h)
      · exact .inl ⟨args, expand, rfl, rfl, rfl⟩
      · exact .inr h
    · rintro (⟨_, _, rfl, _, _⟩ | h)
      · exact .inl rfl
      · exact .inr h
  | object items =>
    simp only [calledFunctions, mem_calledInItems, visited, List.mem_map, reduceCtorEq,
      exists_const, false_or]
    constructor
    · rintro ⟨i, hi, hn⟩
      exact ⟨i.2, ⟨i, hi, rfl⟩, hn⟩
    · rintro ⟨_, ⟨i, hi, rfl⟩, hn⟩
      exact ⟨i, hi, hn⟩
  | loop keyName valueName collection key value condition group =>
    simp only [calledFunctions, List.mem_append, mem_calledInOption, visited, children,
      List.cons_append, List.mem_cons, Option.mem_toList, exists_eq_or_imp, reduceCtorEq,
      exists_const, false_or]
    constructor
    · rintro (((h | h) | h) | h)
      · exact .inl h
      · obtain ⟨k, hk, hn⟩ := h
        exact .inr ⟨k, .inl hk, hn⟩
      · exact .inr ⟨value, .inr (.inl rfl), h⟩
      · obtain ⟨k, hk, hn⟩ := h
        exact .inr ⟨k, .inr (.inr hk), hn⟩
    · rintro (h | ⟨k, hk | rfl | hk, hn⟩)
      · exact .inl (.inl (.inl h))
      · exact .inl (.inl (.inr ⟨k, hk, hn⟩))
      · exact .inl (.inr hn)
      · exact .inr ⟨k, hk, hn⟩
  | _ => simp [mem_calledInList, visited, children]

theorem sizeOf_lt_of_mem_children (h : k ∈ e.children) : sizeOf k < sizeOf e := by
  cases e with
  | template parts | tuple parts | call _ parts _ =>
    have hlt : sizeOf k < sizeOf parts := List.sizeOf_lt_of_mem h
    simp only [template.sizeOf_spec, tuple.sizeOf_spec, call.sizeOf_spec]
    omega
  | object items =>
    have hitem : ∀ i ∈ items, sizeOf i.1 < sizeOf (object items) ∧
        sizeOf i.2 < sizeOf (object items) := by
      intro i hi
      have hlt := List.sizeOf_lt_of_mem hi
      obtain ⟨a, b⟩ := i
      simp only [Prod.mk.sizeOf_spec, object.sizeOf_spec] at hlt ⊢
      omega
    simp only [children, List.mem_append, List.mem_map] at h
    obtain ⟨i, hi, rfl⟩ | ⟨i, hi, rfl⟩ := h
    · exact (hitem i hi).1
    · exact (hitem i hi).2
  | loop keyName valueName collection key value condition group =>
    have hoption : ∀ o : Option Expr, k ∈ o → sizeOf k < sizeOf o := by
      rintro _ rfl
      simp
    simp only [children, List.cons_append, List.mem_cons, List.mem_append, Option.mem_toList] at h
    simp only [loop.sizeOf_spec]
    obtain rfl | h | rfl | h := h
    · omega
    · have hlt := hoption key h
      omega
    · omega
    · have hlt := hoption condition h
      omega
  | literal | item | reference => exact absurd h List.not_mem_nil
  | wrapped e | joined e | relative e _ | unary _ e | parens e | ambiguousKey e =>
    obtain rfl := List.mem_singleton.mp h
    simp only [wrapped.sizeOf_spec, joined.sizeOf_spec, relative.sizeOf_spec, unary.sizeOf_spec,
      parens.sizeOf_spec, ambiguousKey.sizeOf_spec]
    omega
  | conditional c t f =>
    simp only [children, List.mem_cons, List.not_mem_nil, or_false] at h
    simp only [conditional.sizeOf_spec]
    obtain rfl | rfl | rfl := h <;> omega
  | binary _ l r | index l r | splat l r =>
    simp only [children, List.mem_cons, List.not_mem_nil, or_false] at h
    simp only [binary.sizeOf_spec, index.sizeOf_spec, splat.sizeOf_spec]
    obtain rfl | rfl := h <;> omega

/-- **The walk names the calls that it comes to.** -/
theorem mem_calledFunctions_iff : n ∈ e.calledFunctions ↔
    ∃ args expand, e.Reaches (call n args expand) := by
  constructor
  · -- The parts of a node are smaller than the node.
    induction hsize : sizeOf e using Nat.strong_induction_on generalizing e with
    | _ size ih =>
      intro h
      obtain ⟨args, expand, rfl⟩ | ⟨k, hk, hn⟩ := mem_calledFunctions.mp h
      · exact ⟨args, expand, .refl⟩
      · have hlt := sizeOf_lt_of_mem_children (mem_children.mpr (.inr hk))
        obtain ⟨args, expand, hreach⟩ := ih _ (hsize ▸ hlt) rfl hn
        exact ⟨args, expand, .head hk hreach⟩
  · rintro ⟨args, expand, h⟩
    induction h using Relation.ReflTransGen.head_induction_on with
    | refl => exact mem_calledFunctions.mpr (.inl ⟨args, expand, rfl⟩)
    | head hk _ ih => exact mem_calledFunctions.mpr (.inr ⟨_, hk, ih⟩)

/-- **Only functions that are called are named.** -/
theorem calls_of_mem_calledFunctions (h : n ∈ e.calledFunctions) : e.Calls n := by
  obtain ⟨args, expand, hreach⟩ := mem_calledFunctions_iff.mp h
  exact ⟨args, expand, hreach.contains⟩

/-- A function is called in a part that the walk leaves out. -/
def HidesCall (e : Expr) (n : String) : Prop := ∃ a, e.Reaches a ∧ ∃ k ∈ a.hidden, k.Calls n

/-- **Calls are named or left out.** -/
theorem calls_iff : e.Calls n ↔ n ∈ e.calledFunctions ∨ e.HidesCall n := by
  constructor
  · rintro ⟨args, expand, h⟩
    induction h using Relation.ReflTransGen.head_induction_on with
    | refl => exact .inl (mem_calledFunctions.mpr (.inl ⟨args, expand, rfl⟩))
    | @head a b hb hcall ih =>
      obtain hb | hb := mem_children.mp hb
      · exact .inr ⟨a, .refl, b, hb, args, expand, hcall⟩
      · obtain ih | ⟨c, hreach, hc⟩ := ih
        · exact .inl (mem_calledFunctions.mpr (.inr ⟨b, hb, ih⟩))
        · exact .inr ⟨c, .head hb hreach, hc⟩
  · rintro (h | ⟨a, hreach, k, hk, hcalls⟩)
    · exact calls_of_mem_calledFunctions h
    · exact hreach.contains.calls (calls_of_mem_children (mem_children.mpr (.inl hk)) hcalls)

/-- A leaf that is no call has none. -/
theorem not_calls_of_leaf (hchildren : e.children = []) (hcalled : e.calledFunctions = []) :
    ¬e.Calls n := by
  intro h
  obtain ⟨args, expand, rfl⟩ | ⟨k, hk, _⟩ := h.cases
  · simp [calledFunctions] at hcalled
  · exact absurd (hchildren ▸ hk) List.not_mem_nil

end Expr

theorem mem_functionNames {es : List Expr} {n : String} :
    n ∈ functionNames es ↔ ∃ e ∈ es, n ∈ e.calledFunctions := by
  simp [functionNames]

/-- **The summary of some expressions is exact if and only if** the functions
that are called in the parts left out are called elsewhere too. -/
theorem functionNames_exact_iff {es : List Expr} :
    (∀ n, n ∈ functionNames es ↔ ∃ e ∈ es, e.Calls n) ↔
      ∀ e ∈ es, ∀ n, e.HidesCall n → n ∈ functionNames es := by
  constructor
  · intro h e he n hn
    exact (h n).mpr ⟨e, he, Expr.calls_iff.mpr (.inr hn)⟩
  · intro h n
    constructor
    · intro hn
      obtain ⟨e, he, hn⟩ := mem_functionNames.mp hn
      exact ⟨e, he, Expr.calls_of_mem_calledFunctions hn⟩
    · rintro ⟨e, he, hn⟩
      obtain hn | hn := Expr.calls_iff.mp hn
      · exact mem_functionNames.mpr ⟨e, he, hn⟩
      · exact h e he n hn

end SolidityCanvas.Config
