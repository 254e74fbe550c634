/-
The variables that an evaluation looks up.

`Expr.references` lists the variables of an expression that no loop of its own
binds.  Evaluation looks up no others:

* `Expr.eval_congr`: scopes that agree on these variables give the same outcome;
* `Expr.closed_eval`: in a scope that has them all, no fault is about a variable.

The second is a case of `Expr.resolves_eval`.
-/
import SolidityCanvas.Proofs.Config.Lookup

namespace SolidityCanvas.Config

/-- The fault is about a variable. -/
@[simp] def EvalFault.isVariable : EvalFault → Bool
  | .variablesNotAllowed | .unknownVariable => true
  | _ => false

/-- No fault is about a variable. -/
def NoVariable (fs : List EvalFault) : Prop := ∀ f ∈ fs, f.isVariable = false

/-- No fault of the outcome is about a variable. -/
def Outcome.Closed (o : Outcome) : Prop := NoVariable o.faults

/-! ### Scopes -/

namespace Scope

variable {s s' : Scope} {n m : String}

/-- Both scopes say the same of a name. -/
def AgreeOn (s s' : Scope) (n : String) : Prop := lookupVariable s n = lookupVariable s' n

theorem AgreeOn.bind (h : AgreeOn s s' m) (n : String) (v : Value) :
    AgreeOn (s.bind n v) (s'.bind n v) m := by
  by_cases hm : m = n
  · subst hm
    rw [AgreeOn, lookupVariable_bind_self, lookupVariable_bind_self]
  · have hfalse : (m == n) = false := beq_eq_false_iff_ne.mpr hm
    unfold AgreeOn lookupVariable at h ⊢
    simp only [Scope.bind, List.lookup_cons, hfalse]
    -- A scope without variables has a fault of its own, so that both have
    -- variables or neither has.
    cases hs : s.bindings with
    | none =>
      cases hs' : s'.bindings with
      | none => rfl
      | some bindings' =>
        rw [hs, hs'] at h
        dsimp only at h
        split at h <;> simp [Outcome.fault] at h
    | some bindings =>
      cases hs' : s'.bindings with
      | none =>
        rw [hs, hs'] at h
        dsimp only at h
        split at h <;> simp [Outcome.fault] at h
      | some bindings' =>
        rw [hs, hs'] at h
        exact h

/-- The scopes have the same functions and the same element. -/
structure Alike (s s' : Scope) : Prop where
  functions : s.functions = s'.functions
  element : s.element = s'.element

theorem Alike.enterLoop (h : Alike s s') (keyName : Option String) (valueName : String)
    (k v : Value) :
    Alike (s.enterLoop keyName valueName k v) (s'.enterLoop keyName valueName k v) := by
  cases keyName <;> exact ⟨h.functions, h.element⟩

theorem AgreeOn.enterLoop (h : AgreeOn s s' n) (keyName : Option String) (valueName : String)
    (k v : Value) :
    AgreeOn (s.enterLoop keyName valueName k v) (s'.enterLoop keyName valueName k v) n := by
  cases keyName with
  | none => exact h.bind _ _
  | some key => exact (h.bind _ _).bind _ _

/-- Scopes agree on the names of a loop inside it. -/
theorem agreeOn_enterLoop {bound : List String} (keyName : Option String) (valueName : String)
    (k v : Value) (hbound : ∀ n ∈ bound, AgreeOn s s' n) :
    ∀ n ∈ valueName :: keyName.toList ++ bound,
      AgreeOn (s.enterLoop keyName valueName k v) (s'.enterLoop keyName valueName k v) n := by
  intro n hn
  simp only [List.cons_append, List.mem_cons, List.mem_append, Option.mem_toList] at hn
  rcases hn with rfl | hn | hn
  · exact (lookupVariable_bind_self _ _ _).trans (lookupVariable_bind_self _ _ _).symm
  · rw [hn]
    have hself : AgreeOn (s.bind n k) (s'.bind n k) n :=
      (lookupVariable_bind_self _ _ _).trans (lookupVariable_bind_self _ _ _).symm
    exact hself.bind _ _
  · exact (hbound n hn).enterLoop _ _ _ _

end Scope

namespace Expr

/-! ### What evaluation depends on -/

mutual

/-- **Scopes that agree on the variables of an expression give the same
outcome.**  Names that are bound around it are among those they agree on. -/
theorem eval_congr : (e : Expr) → {bound : List String} → {s s' : Scope} →
    (∀ r ∈ e.referencesUnder bound, s.AgreeOn s' r.root) → (∀ n ∈ bound, s.AgreeOn s' n) →
    s.Alike s' → e.eval s = e.eval s'
  | literal v, _, _, _, _, _, _ => rfl
  | template parts, _, _, _, h, hbound, hs => by
    rw [eval, eval, evalList_congr parts h hbound hs]
  | wrapped e, _, _, _, h, hbound, hs => by
    rw [eval, eval, eval_congr e h hbound hs]
  | joined e, _, _, _, h, hbound, hs => by
    rw [eval, eval, eval_congr e h hbound hs]
  | reference root steps, bound, s, s', h, hbound, _ => by
    have hroot : s.AgreeOn s' root := by
      by_cases hmem : bound.contains root = true
      · exact hbound root (List.contains_iff_mem.mp hmem)
      · rw [referencesUnder, if_neg hmem] at h
        exact h _ (List.mem_singleton_self _)
    rw [eval, eval, show lookupVariable s root = lookupVariable s' root from hroot]
  | relative e steps, _, _, _, h, hbound, hs => by
    rw [eval, eval, eval_congr e h hbound hs]
  | call name args expand, _, _, _, h, hbound, hs => by
    rw [eval, eval, evalList_congr args h hbound hs, callNamed, callNamed, hs.functions]
  | conditional c t f, _, _, _, h, hbound, hs => by
    simp only [referencesUnder, List.forall_mem_append] at h
    rw [eval, eval, eval_congr c h.1.1 hbound hs, eval_congr t h.1.2 hbound hs,
      eval_congr f h.2 hbound hs]
  | binary op l r, _, _, _, h, hbound, hs => by
    simp only [referencesUnder, List.forall_mem_append] at h
    rw [eval, eval, eval_congr l h.1 hbound hs, eval_congr r h.2 hbound hs]
  | unary op e, _, _, _, h, hbound, hs => by
    rw [eval, eval, eval_congr e h hbound hs]
  | parens e, _, _, _, h, hbound, hs => by
    rw [eval, eval, eval_congr e h hbound hs]
  | tuple items, _, _, _, h, hbound, hs => by
    rw [eval, eval, evalList_congr items h hbound hs]
  | object items, _, _, _, h, hbound, hs => by
    rw [eval, eval, evalItems_congr items h hbound hs]
  | loop keyName valueName collection key value condition group, bound, s, s', h, hbound, hs => by
    simp only [referencesUnder, List.forall_mem_append] at h
    obtain ⟨⟨⟨hcollection, hkey⟩, hvalue⟩, hcondition⟩ := h
    have hinside (k v : Value) := Scope.agreeOn_enterLoop keyName valueName k v hbound
    have hrefs {rs : List Reference} (hrs : ∀ r ∈ rs, s.AgreeOn s' r.root) (k v : Value) :
        ∀ r ∈ rs, (s.enterLoop keyName valueName k v).AgreeOn
          (s'.enterLoop keyName valueName k v) r.root :=
      fun r hr => (hrs r hr).enterLoop _ _ _ _
    rw [eval, eval, eval_congr collection hcollection hbound hs]
    congr 1
    · funext k v
      exact evalOption_congr condition (hrefs hcondition k v) (hinside k v)
        (hs.enterLoop _ _ _ _)
    · funext k v
      exact evalOption_congr key (hrefs hkey k v) (hinside k v) (hs.enterLoop _ _ _ _)
    · funext k v
      exact eval_congr value (hrefs hvalue k v) (hinside k v) (hs.enterLoop _ _ _ _)
  | index c k, _, _, _, h, hbound, hs => by
    simp only [referencesUnder, List.forall_mem_append] at h
    rw [eval, eval, eval_congr c h.1 hbound hs, eval_congr k h.2 hbound hs]
  | splat source each, _, _, _, h, hbound, hs => by
    simp only [referencesUnder, List.forall_mem_append] at h
    rw [eval, eval, eval_congr source h.1 hbound hs]
    congr 1
    funext v
    -- The element of a splat is no variable.
    exact eval_congr each (fun r hr => h.2 r hr) (fun n hn => hbound n hn)
      ⟨hs.functions, rfl⟩
  | item, _, _, _, _, _, hs => by
    rw [eval, eval, hs.element]
  | ambiguousKey e, _, _, _, _, _, _ => rfl

theorem evalList_congr : (es : List Expr) → {bound : List String} → {s s' : Scope} →
    (∀ r ∈ referencesOfList es bound, s.AgreeOn s' r.root) → (∀ n ∈ bound, s.AgreeOn s' n) →
    s.Alike s' → evalList es s = evalList es s'
  | [], _, _, _, _, _, _ => rfl
  | e :: es, _, _, _, h, hbound, hs => by
    simp only [referencesOfList, List.forall_mem_append] at h
    rw [evalList, evalList, eval_congr e h.1 hbound hs, evalList_congr es h.2 hbound hs]

theorem evalItems_congr : (items : List (Expr × Expr)) → {bound : List String} →
    {s s' : Scope} → (∀ r ∈ referencesOfItems items bound, s.AgreeOn s' r.root) →
    (∀ n ∈ bound, s.AgreeOn s' n) → s.Alike s' → evalItems items s = evalItems items s'
  | [], _, _, _, _, _, _ => rfl
  | (k, v) :: items, _, _, _, h, hbound, hs => by
    simp only [referencesOfItems, List.forall_mem_append] at h
    rw [evalItems, evalItems, eval_congr k h.1.1 hbound hs, eval_congr v h.1.2 hbound hs,
      evalItems_congr items h.2 hbound hs]

theorem evalOption_congr : (e : Option Expr) → {bound : List String} → {s s' : Scope} →
    (∀ r ∈ referencesOfOption e bound, s.AgreeOn s' r.root) → (∀ n ∈ bound, s.AgreeOn s' n) →
    s.Alike s' → evalOption e s = evalOption e s'
  | none, _, _, _, _, _, _ => rfl
  | some e, _, _, _, h, hbound, hs => by
    rw [evalOption, evalOption, eval_congr e h hbound hs]

end

/-! ### Faults of evaluation -/

/-- **In a scope that has all variables of an expression, no fault of it is
about a variable.** -/
theorem closed_eval (e : Expr) {bound : List String} {s : Scope}
    (h : ∀ r ∈ e.referencesUnder bound, s.Has r.root) (hbound : ∀ n ∈ bound, s.Has n) :
    (e.eval s).Closed := by
  have hkind : ∀ f : EvalFault, f.isVariable = f.isAbout .variable := by
    intro f
    cases f <;> rfl
  intro f hf
  rw [hkind]
  -- It is not functions that are looked for.
  exact e.resolves_eval (fun r hr _ => h r hr) (fun n hn _ => hbound n hn)
    (fun _ _ hfunction => by cases hfunction) f hf

end Expr

end SolidityCanvas.Config
