/-
Expressions as they are read.

* `Expr.Proper`: constants are definite, only loops that make a tuple are
  joined, and the element of a splat is meant only inside one;
* `Expr.Proper.eval`: in a scope of definite values and without functions, a
  proper expression has a definite outcome;
* `Parser.proper`: all expressions that are read are proper, and so are those of
  the blocks of a file (`Body.proper_parse?`).
-/
import SolidityCanvas.Config.Parser
import SolidityCanvas.Proofs.Config.Definite

namespace SolidityCanvas.Config

/-- Constants are definite, and only loops that make a tuple are joined.  The
element of a splat is meant only `inside` one. -/
inductive Expr.Proper : Bool → Expr → Prop
  | literal {inside v} (h : v.Definite) : Proper inside (.literal v)
  | template {inside parts} (h : ∀ e ∈ parts, Proper inside e) : Proper inside (.template parts)
  | wrapped {inside e} (h : Proper inside e) : Proper inside (.wrapped e)
  | joined {inside keyName valueName collection value condition group}
      (hcollection : Proper inside collection) (hvalue : Proper inside value)
      (hcondition : ∀ e ∈ condition, Proper inside e) :
      Proper inside (.joined (.loop keyName valueName collection none value condition group))
  | reference {inside root steps} (h : ∀ s ∈ steps, Step.Definite s) :
      Proper inside (.reference root steps)
  | relative {inside e steps} (he : Proper inside e) (h : ∀ s ∈ steps, Step.Definite s) :
      Proper inside (.relative e steps)
  | call {inside name args expand} : Proper inside (.call name args expand)
  | conditional {inside c a b} (hc : Proper inside c) (ha : Proper inside a)
      (hb : Proper inside b) : Proper inside (.conditional c a b)
  | binary {inside op a b} (ha : Proper inside a) (hb : Proper inside b) :
      Proper inside (.binary op a b)
  | unary {inside op e} (h : Proper inside e) : Proper inside (.unary op e)
  | parens {inside e} (h : Proper inside e) : Proper inside (.parens e)
  | tuple {inside items} (h : ∀ e ∈ items, Proper inside e) : Proper inside (.tuple items)
  | object {inside items} (hkeys : ∀ i ∈ items, Proper inside i.1)
      (hvalues : ∀ i ∈ items, Proper inside i.2) : Proper inside (.object items)
  | loop {inside keyName valueName collection key value condition group}
      (hcollection : Proper inside collection) (hkey : ∀ e ∈ key, Proper inside e)
      (hvalue : Proper inside value) (hcondition : ∀ e ∈ condition, Proper inside e) :
      Proper inside (.loop keyName valueName collection key value condition group)
  | index {inside a b} (ha : Proper inside a) (hb : Proper inside b) : Proper inside (.index a b)
  | splat {inside source each} (hsource : Proper inside source) (heach : Proper true each) :
      Proper inside (.splat source each)
  | item : Proper true .item
  | ambiguousKey {inside e} : Proper inside (.ambiguousKey e)

/-! ### Evaluation -/

/-- There are no functions, all variables have definite values, and so has the
element of the splat around, if there is one. -/
structure Scope.Definite (s : Scope) (inside : Bool) : Prop where
  functions : s.functions = none
  bindings : ∀ bs ∈ s.bindings, ∀ b ∈ bs, b.2.Definite
  element : inside = true → ∃ v ∈ s.element, v.Definite

namespace Scope.Definite

variable {s : Scope} {inside : Bool} {v k : Value}

theorem bind (h : s.Definite inside) (name : String) (hv : v.Definite) :
    (s.bind name v).Definite inside := by
  refine ⟨h.functions, ?_, h.element⟩
  rintro _ ⟨⟩
  refine List.forall_mem_cons.mpr ⟨hv, ?_⟩
  cases hb : s.bindings with
  | none => exact fun _ he => absurd he List.not_mem_nil
  | some bs => exact h.bindings bs hb

theorem enterLoop (h : s.Definite inside) (keyName : Option String) (valueName : String)
    (hk : k.Definite) (hv : v.Definite) :
    (s.enterLoop keyName valueName k v).Definite inside := by
  cases keyName with
  | none => exact h.bind valueName hv
  | some n => exact (h.bind n hk).bind valueName hv

theorem enterSplat (h : s.Definite inside) (hv : v.Definite) :
    (s.enterSplat v).Definite true := ⟨h.functions, h.bindings, fun _ => ⟨v, rfl, hv⟩⟩

theorem lookupVariable (h : s.Definite inside) (name : String) :
    (lookupVariable s name).Definite := by
  unfold Config.lookupVariable
  split
  · exact definite_fault _
  · rename_i bs hbs
    split
    · exact definite_fault _
    · rename_i v hv
      exact Outcome.definite_mk (h.bindings bs hbs _ (mem_of_lookup hv))

end Scope.Definite

namespace Expr

theorem evalList_eq_map (es : List Expr) (s : Scope) : evalList es s = es.map (eval · s) := by
  induction es with
  | nil => rw [evalList, List.map_nil]
  | cons e es ih => rw [evalList, List.map_cons, ih]

theorem evalItems_eq_map (items : List (Expr × Expr)) (s : Scope) :
    evalItems items s = items.map fun i => (i.1.eval s, i.2.eval s) := by
  induction items with
  | nil => rw [evalItems, List.map_nil]
  | cons i items ih =>
    obtain ⟨k, v⟩ := i
    rw [evalItems, List.map_cons, ih]

theorem forall_mem_evalOption {e : Option Expr} {s : Scope} {P : Outcome → Prop}
    (h : ∀ e' ∈ e, P (e'.eval s)) : ∀ o ∈ evalOption e s, P o := by
  cases e with
  | none => simp [evalOption]
  | some e => simpa [evalOption] using h

/-- **A proper expression has a definite outcome.** -/
theorem Proper.definite_eval {inside : Bool} {e : Expr} (h : e.Proper inside) :
    ∀ {s : Scope}, s.Definite inside → (e.eval s).Definite := by
  induction h with
  | literal h =>
    intro s _
    rw [eval]
    exact Outcome.definite_mk h
  | template h ih =>
    intro s hs
    rw [eval, evalList_eq_map]
    refine definite_text fun o ho => ?_
    obtain ⟨e, he, rfl⟩ := List.mem_map.mp ho
    exact ih e he hs
  | wrapped _ ih | parens _ ih =>
    intro s hs
    rw [eval]
    exact ih hs
  | @joined inside keyName valueName _ _ _ _ _ _ _ ihc ihv ihif =>
    intro s hs
    have hinside {k v : Value} (hk : k.Definite) (hv : v.Definite) :=
      hs.enterLoop keyName valueName hk hv
    have hcondition (k v : Value) (hk : k.Definite) (hv : v.Definite) :=
      forall_mem_evalOption fun e he => ihif e he (hinside hk hv)
    have hkey (k v : Value) (_ : k.Definite) (_ : v.Definite) :
        ∀ o ∈ evalOption none (s.enterLoop keyName valueName k v), o.Definite := by simp [evalOption]
    have hvalue (k v : Value) (hk : k.Definite) (hv : v.Definite) := ihv (hinside hk hv)
    rw [eval, eval]
    exact definite_joinedOutcome (definite_loopOutcome (ihc hs) hcondition hkey hvalue)
      (tuple_loopOutcome (ihc hs) hcondition hkey hvalue)
  | reference h =>
    intro s hs
    unfold eval
    dsimp only
    split
    · exact (hs.lookupVariable _).steps h
    · exact hs.lookupVariable _
  | relative _ h ih =>
    intro s hs
    rw [eval]
    exact (ih hs).steps h
  | call =>
    intro s hs
    rw [eval, callNamed, hs.functions]
    exact definite_fault _
  | conditional _ _ _ ihc iha ihb =>
    intro s hs
    rw [eval]
    exact definite_conditionalOutcome (ihc hs) (iha hs) (ihb hs)
  | binary _ _ iha ihb =>
    intro s hs
    rw [eval]
    exact definite_binaryOutcome _ (iha hs) (ihb hs)
  | unary _ ih =>
    intro s hs
    rw [eval]
    exact definite_unaryOutcome _ (ih hs)
  | tuple _ ih =>
    intro s hs
    rw [eval, evalList_eq_map]
    intro hfaults
    refine .sequence (.tuple _) fun v hv => ?_
    obtain ⟨o, ho, rfl⟩ := List.mem_map.mp hv
    obtain ⟨e, he, rfl⟩ := List.mem_map.mp ho
    exact ih e he hs (List.flatMap_eq_nil_iff.mp hfaults _ ho)
  | object _ _ ihk ihv =>
    intro s hs
    rw [eval, evalItems_eq_map]
    refine definite_object fun o ho => ?_
    obtain ⟨i, hi, rfl⟩ := List.mem_map.mp ho
    exact ⟨ihk i hi hs, ihv i hi hs⟩
  | @loop inside keyName valueName _ _ _ _ _ _ _ _ _ ihc ihk ihv ihif =>
    intro s hs
    have hinside {k v : Value} (hk : k.Definite) (hv : v.Definite) :=
      hs.enterLoop keyName valueName hk hv
    rw [eval]
    exact definite_loopOutcome (ihc hs)
      (fun k v hk hv => forall_mem_evalOption fun e he => ihif e he (hinside hk hv))
      (fun k v hk hv => forall_mem_evalOption fun e he => ihk e he (hinside hk hv))
      fun k v hk hv => ihv (hinside hk hv)
  | index _ _ iha ihb =>
    intro s hs
    rw [eval]
    intro hfaults
    obtain ⟨hparts, hindex⟩ := List.append_eq_nil_iff.mp hfaults
    obtain ⟨hfa, hfb⟩ := List.append_eq_nil_iff.mp hparts
    exact definite_indexValue (iha hs hfa) (ihb hs hfb) hindex
  | splat _ _ ihsource iheach =>
    intro s hs
    rw [eval]
    exact definite_splatOutcome (ihsource hs) fun v hv => iheach (hs.enterSplat hv)
  | item =>
    intro s hs
    rw [eval]
    obtain ⟨v, hv, hdefinite⟩ := hs.element rfl
    rw [Option.mem_def.mp hv]
    exact Outcome.definite_mk hdefinite
  | ambiguousKey =>
    intro s _
    rw [eval]
    exact definite_fault _

/-- What is meant outside of a splat may stand inside one. -/
theorem Proper.inside {e : Expr} (h : e.Proper false) (inside : Bool) : e.Proper inside := by
  suffices hall : ∀ {b e}, Expr.Proper b e → b = false → e.Proper inside from hall h rfl
  intro b e h
  induction h with
  | literal h => exact fun _ => .literal h
  | template _ ih => exact fun hb => .template fun e he => ih e he hb
  | wrapped _ ih => exact fun hb => .wrapped (ih hb)
  | joined _ _ _ ihc ihv ihif => exact fun hb => .joined (ihc hb) (ihv hb) fun e he => ihif e he hb
  | reference h => exact fun _ => .reference h
  | relative _ h ih => exact fun hb => .relative (ih hb) h
  | call => exact fun _ => .call
  | conditional _ _ _ ihc iha ihb => exact fun hb => .conditional (ihc hb) (iha hb) (ihb hb)
  | binary _ _ iha ihb => exact fun hb => .binary (iha hb) (ihb hb)
  | unary _ ih => exact fun hb => .unary (ih hb)
  | parens _ ih => exact fun hb => .parens (ih hb)
  | tuple _ ih => exact fun hb => .tuple fun e he => ih e he hb
  | object _ _ ihk ihv => exact fun hb => .object (fun i hi => ihk i hi hb) fun i hi => ihv i hi hb
  | loop _ _ _ _ ihc ihk ihv ihif =>
    exact fun hb => .loop (ihc hb) (fun e he => ihk e he hb) (ihv hb) fun e he => ihif e he hb
  | index _ _ iha ihb => exact fun hb => .index (iha hb) (ihb hb)
  | splat _ heach ihsource _ => exact fun hb => .splat (ihsource hb) heach
  | item => exact fun hb => absurd hb (by decide)
  | ambiguousKey => exact fun _ => .ambiguousKey

theorem proper_null {inside : Bool} : Expr.null.Proper inside := .literal (.null _)

theorem Proper.addStep {inside : Bool} {e : Expr} (h : e.Proper inside) {s : Step}
    (hs : s.Definite) : (e.addStep s).Proper inside := by
  have hmore {steps : List Step} (hsteps : ∀ s ∈ steps, s.Definite) :
      ∀ s' ∈ steps ++ [s], s'.Definite :=
    List.forall_mem_append.mpr ⟨hsteps, List.forall_mem_singleton.mpr hs⟩
  unfold Expr.addStep
  split
  · cases h with
    | reference hsteps => exact .reference (hmore hsteps)
  · cases h with
    | relative he hsteps => exact .relative he (hmore hsteps)
  · exact .relative h (List.forall_mem_singleton.mpr hs)

end Expr

/-! ### Texts with interpolations -/

/-- The expression of the part is proper. -/
def TemplatePart.Proper : TemplatePart → Prop
  | .value e | .openIf e | .openFor _ _ e => e.Proper false
  | _ => True

namespace Template

variable {parts : List TemplatePart}

theorem proper_trimLast (h : ∀ p ∈ parts, p.Proper) : ∀ p ∈ trimLast parts, p.Proper := by
  unfold trimLast
  split
  · rw [List.forall_mem_cons] at h ⊢
    exact ⟨trivial, h.2⟩
  · exact h

theorem proper_dropIndentation (n : Nat) : ∀ {parts : List TemplatePart} {lineStart : Bool},
    (∀ p ∈ parts, p.Proper) → ∀ p ∈ dropIndentation n lineStart parts, p.Proper := by
  intro parts
  induction parts with
  | nil => exact fun _ => by simp [dropIndentation]
  | cons part parts ih =>
    intro lineStart h
    obtain ⟨hpart, hparts⟩ := List.forall_mem_cons.mp h
    cases part with
    | text s => exact List.forall_mem_cons.mpr ⟨trivial, ih hparts⟩
    | _ => exact List.forall_mem_cons.mpr ⟨hpart, ih hparts⟩

theorem proper_flush (h : ∀ p ∈ parts, p.Proper) : ∀ p ∈ flush parts, p.Proper := by
  unfold flush
  split
  · exact h
  · exact proper_dropIndentation _ h

theorem proper_meld : ∀ {parts : List TemplatePart}, (∀ p ∈ parts, p.Proper) →
    ∀ p ∈ meld parts, p.Proper := by
  intro parts
  induction parts with
  | nil => exact fun h => h
  | cons part parts ih =>
    intro h
    obtain ⟨hpart, hparts⟩ := List.forall_mem_cons.mp h
    have hmeld := ih hparts
    cases part with
    | text s =>
      unfold meld
      split
      · rename_i t more hmore
        rw [hmore, List.forall_mem_cons] at hmeld
        exact List.forall_mem_cons.mpr ⟨trivial, hmeld.2⟩
      · exact List.forall_mem_cons.mpr ⟨trivial, hmeld⟩
    | _ => exact List.forall_mem_cons.mpr ⟨hpart, hmeld⟩

/-- The expressions of a directive that waits for its end are proper. -/
def Pending.Proper : Pending → Prop
  | .branch condition => condition.Proper false
  | .alternative condition ifTrue => condition.Proper false ∧ ifTrue.Proper false
  | .loop _ _ collection => collection.Proper false

theorem proper_ofParts {es : List Expr} (h : ∀ e ∈ es, e.Proper false) :
    (ofParts es).Proper false := by
  unfold ofParts
  split
  · refine .template (List.forall_mem_singleton.mpr (.literal (.string ?_)))
    exact Text.normalize_eq_self (by simp)
  · exact .template fun e he => h e (List.mem_reverse.mp he)

theorem proper_ofParts_nil : (ofParts []).Proper false := proper_ofParts (by simp)

theorem proper_assembleFrom {current : List Expr} {pending : List (Pending × List Expr)}
    (hcurrent : ∀ e ∈ current, e.Proper false)
    (hpending : ∀ q ∈ pending, q.1.Proper ∧ ∀ e ∈ q.2, e.Proper false)
    (hparts : ∀ p ∈ parts, p.Proper) {es : List Expr}
    (h : assembleFrom current pending parts = some es) : ∀ e ∈ es, e.Proper false := by
  fun_induction assembleFrom current pending parts with
  | case1 current =>
    obtain rfl := Option.some_inj.mp h
    exact fun e he => hcurrent e (List.mem_reverse.mp he)
  | case2 => cases h
  | case3 current pending s rest ih =>
    exact ih (List.forall_mem_cons.mpr ⟨.literal (.text s), hcurrent⟩) hpending
      (List.forall_mem_cons.mp hparts).2 h
  | case4 current pending e rest ih =>
    obtain ⟨he, hrest⟩ := List.forall_mem_cons.mp hparts
    exact ih (List.forall_mem_cons.mpr ⟨he, hcurrent⟩) hpending hrest h
  | case5 current pending condition rest ih =>
    obtain ⟨hcondition, hrest⟩ := List.forall_mem_cons.mp hparts
    exact ih (by simp) (List.forall_mem_cons.mpr ⟨⟨hcondition, hcurrent⟩, hpending⟩) hrest h
  | case6 current condition before pending rest ih =>
    obtain ⟨⟨hcondition, hbefore⟩, hpending⟩ := List.forall_mem_cons.mp hpending
    exact ih (by simp) (List.forall_mem_cons.mpr
      ⟨⟨⟨hcondition, proper_ofParts hcurrent⟩, hbefore⟩, hpending⟩) (List.forall_mem_cons.mp hparts).2 h
  | case7 current condition before pending rest ih =>
    obtain ⟨⟨hcondition, hbefore⟩, hpending⟩ := List.forall_mem_cons.mp hpending
    have hconditional := Expr.Proper.conditional hcondition (proper_ofParts hcurrent)
      proper_ofParts_nil
    exact ih (List.forall_mem_cons.mpr ⟨hconditional, hbefore⟩) hpending
      (List.forall_mem_cons.mp hparts).2 h
  | case8 current condition ifTrue before pending rest ih =>
    obtain ⟨⟨⟨hcondition, hifTrue⟩, hbefore⟩, hpending⟩ := List.forall_mem_cons.mp hpending
    have hconditional := Expr.Proper.conditional hcondition hifTrue (proper_ofParts hcurrent)
    exact ih (List.forall_mem_cons.mpr ⟨hconditional, hbefore⟩) hpending
      (List.forall_mem_cons.mp hparts).2 h
  | case9 current pending keyName valueName collection rest ih =>
    obtain ⟨hcollection, hrest⟩ := List.forall_mem_cons.mp hparts
    exact ih (by simp) (List.forall_mem_cons.mpr ⟨⟨hcollection, hcurrent⟩, hpending⟩) hrest h
  | case10 current keyName valueName collection before pending rest body ih =>
    obtain ⟨⟨hcollection, hbefore⟩, hpending⟩ := List.forall_mem_cons.mp hpending
    have hbody : (Expr.joined body).Proper false :=
      .joined hcollection (proper_ofParts hcurrent) (by simp)
    exact ih (List.forall_mem_cons.mpr ⟨hbody, hbefore⟩) hpending
      (List.forall_mem_cons.mp hparts).2 h
  | case11 => cases h

theorem proper_assemble? {flushed : Bool} (h : ∀ p ∈ parts, p.Proper) {e : Expr}
    (he : assemble? flushed parts = some e) : e.Proper false := by
  have hmeld := proper_meld (forall_mem_ite (p := flushed = true) (proper_flush h) h)
  unfold assemble? at he
  split at he
  · rename_i e' hparts
    obtain rfl := Option.some_inj.mp he
    rw [hparts] at hmeld
    exact .wrapped (hmeld (.value e') List.mem_cons_self)
  · obtain rfl := Option.some_inj.mp he
    exact proper_ofParts_nil
  · obtain ⟨es, hes, rfl⟩ := Option.map_eq_some_iff.mp he
    exact .template (proper_assembleFrom (by simp) (by simp) hmeld hes)

end Template

/-! ### Reading expressions -/

namespace Parser

variable {lines : Bool} {ts rest : List Token} {e : Expr} {fuel : Nat}

theorem proper_wordExpr (n : String) : (wordExpr n).Proper false := by
  unfold wordExpr
  split
  · exact .literal (.bool _)
  · exact .literal (.bool _)
  · exact Expr.proper_null
  · exact .reference (by simp)

theorem proper_objectKey (h : e.Proper false) (inParens : Bool) :
    (objectKey inParens e).Proper false := by
  unfold objectKey
  split
  · exact h
  split
  · exact .ambiguousKey
  split
  · exact .literal (.text _)
  · exact h

theorem definite_constantKey? {v : Value} (h : e.Proper false) (hv : constantKey? e = some v) :
    v.Definite := by
  unfold constantKey? at hv
  split at hv
  · obtain rfl := Option.some_inj.mp hv
    cases h with
    | literal h => exact h
  · obtain rfl := Option.some_inj.mp hv
    cases h with
    | template h =>
      cases List.forall_mem_singleton.mp h with
      | literal h => exact h
  · cases hv

theorem definite_attributeIndex? {number : String} {s : Step} (h : attributeIndex? number = some s) :
    s.Definite := by
  unfold attributeIndex? at h
  split at h
  · cases h
  · obtain ⟨n, -, rfl⟩ := Option.map_eq_some_iff.mp h
    exact .number n

theorem definite_splatSteps : ∀ {fuel : Nat} {ts : List Token} {steps : List Step},
    splatSteps lines fuel ts = some (steps, rest) → ∀ s ∈ steps, s.Definite := by
  intro fuel
  induction fuel with
  | zero =>
    intro ts steps h
    obtain ⟨rfl, -⟩ := Prod.mk.inj (Option.some_inj.mp h)
    simp
  | succ fuel ih =>
    intro ts steps h
    unfold splatSteps at h
    split at h
    · split at h
      · obtain ⟨⟨steps', rest'⟩, hsteps, h⟩ := Option.bind_eq_some_iff.mp h
        obtain ⟨rfl, rfl⟩ := Prod.mk.inj (Option.some_inj.mp h)
        exact List.forall_mem_cons.mpr ⟨trivial, ih hsteps⟩
      · obtain ⟨s, hs, h⟩ := Option.bind_eq_some_iff.mp h
        obtain ⟨⟨steps', rest'⟩, hsteps, h⟩ := Option.bind_eq_some_iff.mp h
        obtain ⟨rfl, rfl⟩ := Prod.mk.inj (Option.some_inj.mp h)
        exact List.forall_mem_cons.mpr ⟨definite_attributeIndex? hs, ih hsteps⟩
      · cases h
    · obtain ⟨rfl, -⟩ := Prod.mk.inj (Option.some_inj.mp h)
      simp

theorem proper_splatItem {steps : List Step} (h : ∀ s ∈ steps, s.Definite) :
    (splatItem steps).Proper true := by
  unfold splatItem
  split
  · exact .item
  · exact .relative .item h

/-- What is read with some fuel is proper, at every stage. -/
structure ReadsProper (fuel : Nat) : Prop where
  expression : ∀ {lines ts e rest}, expression fuel lines ts = some (e, rest) → e.Proper false
  binary : ∀ {lines level ts e rest}, binary fuel lines level ts = some (e, rest) → e.Proper false
  binaryRest : ∀ {lines level left ts e rest}, left.Proper false →
    binaryRest fuel lines level left ts = some (e, rest) → e.Proper false
  operand : ∀ {lines ts e rest}, operand fuel lines ts = some (e, rest) → e.Proper false
  term : ∀ {lines ts e rest}, term fuel lines ts = some (e, rest) → e.Proper false
  steps : ∀ {inside lines e ts e' rest}, e.Proper inside →
    steps fuel lines e ts = some (e', rest) → e'.Proper inside
  tupleItems : ∀ {done ts items rest}, (∀ e ∈ done, e.Proper false) →
    tupleItems fuel done ts = some (items, rest) → ∀ e ∈ items, e.Proper false
  objectItems : ∀ {done ts items rest}, (∀ i ∈ done, i.1.Proper false ∧ i.2.Proper false) →
    objectItems fuel done ts = some (items, rest) →
    ∀ i ∈ items, i.1.Proper false ∧ i.2.Proper false
  loop : ∀ {makesObject ts e rest}, loop fuel makesObject ts = some (e, rest) → e.Proper false
  templateParts : ∀ {close trim done ts parts rest}, (∀ p ∈ done, p.Proper) →
    templateParts fuel close trim done ts = some (parts, rest) → ∀ p ∈ parts, p.Proper
  directive : ∀ {ts p rest}, directive fuel ts = some (p, rest) → p.Proper

namespace ReadsProper

theorem zero : ReadsProper 0 where
  expression h := by simp [Parser.expression] at h
  binary h := by simp [Parser.binary] at h
  binaryRest _ h := by simp [Parser.binaryRest] at h
  operand h := by simp [Parser.operand] at h
  term h := by simp [Parser.term] at h
  steps _ h := by simp [Parser.steps] at h
  tupleItems _ h := by simp [Parser.tupleItems] at h
  objectItems _ h := by simp [Parser.objectItems] at h
  loop h := by simp [Parser.loop] at h
  templateParts _ h := by simp [Parser.templateParts] at h
  directive h := by simp [Parser.directive] at h

theorem succ_expression (ih : ReadsProper fuel)
    (h : Parser.expression (fuel + 1) lines ts = some (e, rest)) : e.Proper false := by
  rw [Parser.expression] at h
  obtain ⟨⟨condition, rest'⟩, hcondition, h⟩ := Option.bind_eq_some_iff.mp h
  dsimp only at h
  split at h
  · obtain ⟨⟨ifTrue, rest'⟩, hifTrue, h⟩ := Option.bind_eq_some_iff.mp h
    dsimp only at h
    split at h
    · obtain ⟨⟨ifFalse, rest'⟩, hifFalse, h⟩ := Option.bind_eq_some_iff.mp h
      obtain ⟨rfl, -⟩ := Prod.mk.inj (Option.some_inj.mp h)
      exact .conditional (ih.binary hcondition) (ih.expression hifTrue) (ih.expression hifFalse)
    · cases h
  · obtain ⟨rfl, -⟩ := Prod.mk.inj (Option.some_inj.mp h)
    exact ih.binary hcondition

theorem succ_binary (ih : ReadsProper fuel) {level : Nat}
    (h : Parser.binary (fuel + 1) lines level ts = some (e, rest)) : e.Proper false := by
  rw [Parser.binary] at h
  split at h
  · exact ih.operand h
  · obtain ⟨⟨left, rest'⟩, hleft, h⟩ := Option.bind_eq_some_iff.mp h
    exact ih.binaryRest (ih.binary hleft) h

theorem succ_binaryRest (ih : ReadsProper fuel) {level : Nat} {left : Expr}
    (hleft : left.Proper false)
    (h : Parser.binaryRest (fuel + 1) lines level left ts = some (e, rest)) : e.Proper false := by
  rw [Parser.binaryRest] at h
  split at h
  · split at h
    · obtain ⟨⟨right, rest'⟩, hright, h⟩ := Option.bind_eq_some_iff.mp h
      exact ih.binaryRest (.binary hleft (ih.binary hright)) h
    · obtain ⟨rfl, -⟩ := Prod.mk.inj (Option.some_inj.mp h)
      exact hleft
  · obtain ⟨rfl, -⟩ := Prod.mk.inj (Option.some_inj.mp h)
    exact hleft

theorem succ_operand (ih : ReadsProper fuel)
    (h : Parser.operand (fuel + 1) lines ts = some (e, rest)) : e.Proper false := by
  rw [Parser.operand] at h
  obtain ⟨⟨e', rest'⟩, he, h⟩ := Option.bind_eq_some_iff.mp h
  exact ih.steps (ih.term he) h

/-- A text with its parts. -/
theorem proper_text (ih : ReadsProper fuel) {close : Option Token} {flushed : Bool}
    (h : (do
      let (parts, rest) ← Parser.templateParts fuel close false [] ts
      let e ← Template.assemble? flushed parts
      return (e, rest)) = some (e, rest)) : e.Proper false := by
  obtain ⟨⟨parts, rest'⟩, hparts, h⟩ := Option.bind_eq_some_iff.mp h
  obtain ⟨e', he', h⟩ := Option.bind_eq_some_iff.mp h
  obtain ⟨rfl, -⟩ := Prod.mk.inj (Option.some_inj.mp h)
  exact Template.proper_assemble? (ih.templateParts (by simp) hparts) he'

theorem proper_call {n : String} (h : (do
      let (name, rest) ← Parser.functionName lines false n ts
      let (args, expand, rest) ← Parser.arguments fuel [] rest
      return (Expr.call name args expand, rest)) = some (e, rest)) : e.Proper false := by
  obtain ⟨⟨name, rest'⟩, -, h⟩ := Option.bind_eq_some_iff.mp h
  obtain ⟨⟨args, expand, rest''⟩, -, h⟩ := Option.bind_eq_some_iff.mp h
  obtain ⟨rfl, -⟩ := Prod.mk.inj (Option.some_inj.mp h)
  exact .call

theorem succ_term (ih : ReadsProper fuel)
    (h : Parser.term (fuel + 1) lines ts = some (e, rest)) : e.Proper false := by
  rw [Parser.term] at h
  split at h
  · obtain ⟨⟨e', rest'⟩, he, h⟩ := Option.bind_eq_some_iff.mp h
    dsimp only at h
    split at h
    · obtain ⟨rfl, -⟩ := Prod.mk.inj (Option.some_inj.mp h)
      exact .parens (ih.expression he)
    · cases h
  · obtain ⟨n, -, h⟩ := Option.map_eq_some_iff.mp h
    obtain ⟨rfl, -⟩ := Prod.mk.inj h
    exact .literal (.number n)
  · split at h
    · exact proper_call h
    · exact proper_call h
    · obtain ⟨rfl, -⟩ := Prod.mk.inj (Option.some_inj.mp h)
      exact proper_wordExpr _
  · exact ih.proper_text h
  · exact ih.proper_text h
  · obtain ⟨⟨e', rest'⟩, he, h⟩ := Option.bind_eq_some_iff.mp h
    obtain ⟨rfl, -⟩ := Prod.mk.inj (Option.some_inj.mp h)
    exact .unary (ih.operand he)
  · obtain ⟨⟨e', rest'⟩, he, h⟩ := Option.bind_eq_some_iff.mp h
    obtain ⟨rfl, -⟩ := Prod.mk.inj (Option.some_inj.mp h)
    exact .unary (ih.operand he)
  · split at h
    · exact ih.loop h
    · obtain ⟨⟨items, rest'⟩, hitems, h⟩ := Option.bind_eq_some_iff.mp h
      obtain ⟨rfl, -⟩ := Prod.mk.inj (Option.some_inj.mp h)
      exact .tuple (ih.tupleItems (by simp) hitems)
  · split at h
    · exact ih.loop h
    · obtain ⟨⟨items, rest'⟩, hitems, h⟩ := Option.bind_eq_some_iff.mp h
      obtain ⟨rfl, -⟩ := Prod.mk.inj (Option.some_inj.mp h)
      have hall := ih.objectItems (by simp) hitems
      exact .object (fun i hi => (hall i hi).1) fun i hi => (hall i hi).2
  · cases h

theorem succ_steps (ih : ReadsProper fuel) {inside : Bool} {e' : Expr} (he : e.Proper inside)
    (h : Parser.steps (fuel + 1) lines e ts = some (e', rest)) : e'.Proper inside := by
  rw [Parser.steps] at h
  split at h
  · split at h
    · exact ih.steps (he.addStep (s := .attribute _) trivial) h
    · obtain ⟨s, hs, h⟩ := Option.bind_eq_some_iff.mp h
      exact ih.steps (he.addStep (definite_attributeIndex? hs)) h
    · obtain ⟨⟨inner, rest'⟩, hinner, h⟩ := Option.bind_eq_some_iff.mp h
      exact ih.steps (.splat he (proper_splatItem (definite_splatSteps hinner))) h
    · cases h
  · split at h
    · split at h
      · obtain ⟨⟨each, rest'⟩, heach, h⟩ := Option.bind_eq_some_iff.mp h
        obtain ⟨rfl, -⟩ := Prod.mk.inj (Option.some_inj.mp h)
        exact .splat he (ih.steps .item heach)
      · cases h
    · obtain ⟨⟨key, rest'⟩, hkey, h⟩ := Option.bind_eq_some_iff.mp h
      have hkey := ih.expression hkey
      dsimp only at h
      split at h
      · split at h
        · rename_i v hv
          exact ih.steps (he.addStep (s := .index v) (definite_constantKey? hkey hv)) h
        · exact ih.steps (.index he (hkey.inside inside)) h
      · cases h
  · obtain ⟨rfl, -⟩ := Prod.mk.inj (Option.some_inj.mp h)
    exact he

theorem succ_tupleItems (ih : ReadsProper fuel) {done items : List Expr}
    (hdone : ∀ e ∈ done, e.Proper false)
    (h : Parser.tupleItems (fuel + 1) done ts = some (items, rest)) :
    ∀ e ∈ items, e.Proper false := by
  rw [Parser.tupleItems] at h
  split at h
  · obtain ⟨rfl, -⟩ := Prod.mk.inj (Option.some_inj.mp h)
    simpa using hdone
  · obtain ⟨⟨e', rest'⟩, he, h⟩ := Option.bind_eq_some_iff.mp h
    have hmore := List.forall_mem_cons.mpr ⟨ih.expression he, hdone⟩
    dsimp only at h
    split at h
    · obtain ⟨rfl, -⟩ := Prod.mk.inj (Option.some_inj.mp h)
      exact fun x hx => hmore x (List.mem_reverse.mp hx)
    · exact ih.tupleItems hmore h
    · cases h

theorem succ_objectItems (ih : ReadsProper fuel) {done items : List (Expr × Expr)}
    (hdone : ∀ i ∈ done, i.1.Proper false ∧ i.2.Proper false)
    (h : Parser.objectItems (fuel + 1) done ts = some (items, rest)) :
    ∀ i ∈ items, i.1.Proper false ∧ i.2.Proper false := by
  unfold Parser.objectItems at h
  split at h
  · exact ih.objectItems hdone h
  · obtain ⟨rfl, -⟩ := Prod.mk.inj (Option.some_inj.mp h)
    exact fun i hi => hdone i (List.mem_reverse.mp hi)
  · obtain ⟨⟨key, rest'⟩, hkey, h⟩ := Option.bind_eq_some_iff.mp h
    have hproper := proper_objectKey (ih.expression hkey)
    dsimp only at h
    split at h
    case h_3 => cases h
    all_goals
      obtain ⟨⟨value, rest'⟩, hvalue, h⟩ := Option.bind_eq_some_iff.mp h
      have hmore (inParens : Bool) := List.forall_mem_cons (a := (objectKey inParens key, value)).mpr
        ⟨⟨hproper inParens, ih.expression hvalue⟩, hdone⟩
      dsimp only at h
      split at h
      · obtain ⟨rfl, -⟩ := Prod.mk.inj (Option.some_inj.mp h)
        exact fun i hi => hmore _ i (List.mem_reverse.mp hi)
      · exact ih.objectItems (hmore _) h
      · exact ih.objectItems (hmore _) h
      · cases h

theorem succ_loop (ih : ReadsProper fuel) {makesObject : Bool}
    (h : Parser.loop (fuel + 1) makesObject ts = some (e, rest)) : e.Proper false := by
  rw [Parser.loop] at h
  obtain ⟨⟨keyName, valueName, rest'⟩, -, h⟩ := Option.bind_eq_some_iff.mp h
  obtain ⟨⟨collection, rest'⟩, hcollection, h⟩ := Option.bind_eq_some_iff.mp h
  dsimp only at h
  split at h
  · obtain ⟨⟨first, rest'⟩, hfirst, h⟩ := Option.bind_eq_some_iff.mp h
    have hfirst := ih.expression hfirst
    have hloop (key value condition group) (hkey : ∀ e ∈ key, e.Proper false)
        (hvalue : value.Proper false) (hcondition : ∀ e ∈ condition, e.Proper false) :
        (Expr.loop keyName valueName collection key value condition group).Proper false :=
      .loop (ih.expression hcollection) hkey hvalue hcondition
    dsimp only at h
    split at h
    case' h_1 =>
      obtain ⟨⟨value, rest'⟩, hvalue, h⟩ := Option.bind_eq_some_iff.mp h
      simp only [Option.pure_def, Option.bind_eq_bind, Option.bind_some] at h
      have hkeyed (condition group) :=
        hloop (some first) value condition group (by simpa using hfirst) (ih.expression hvalue)
    case' h_2 =>
      simp only [Option.pure_def, Option.bind_eq_bind, Option.bind_some] at h
      have hkeyed (condition group) := hloop none first condition group (by simp) hfirst
    all_goals
      split at h
      case' h_1 =>
        obtain ⟨⟨condition, rest'⟩, hcondition, h⟩ := Option.bind_eq_some_iff.mp h
        dsimp only at h
        have hend (group) :=
          hkeyed (some condition) group (by simpa using ih.expression hcondition)
      case' h_2 => have hend (group) := hkeyed none group (by simp)
      all_goals
        split at h
        · obtain ⟨-, h⟩ := Option.ite_none_right_eq_some.mp h
          obtain ⟨rfl, -⟩ := Prod.mk.inj (Option.some_inj.mp h)
          exact hend _
        · cases h
  · cases h

theorem succ_templateParts (ih : ReadsProper fuel) {close : Option Token} {trim : Bool}
    {done parts : List TemplatePart} (hdone : ∀ p ∈ done, p.Proper)
    (h : Parser.templateParts (fuel + 1) close trim done ts = some (parts, rest)) :
    ∀ p ∈ parts, p.Proper := by
  have htrimmed (strip : Bool) : ∀ p ∈ (if strip then Template.trimLast done else done), p.Proper :=
    forall_mem_ite (Template.proper_trimLast hdone) hdone
  unfold Parser.templateParts at h
  split at h
  · split at h
    · obtain ⟨rfl, -⟩ := Prod.mk.inj (Option.some_inj.mp h)
      exact fun p hp => hdone p (List.mem_reverse.mp hp)
    · cases h
  · refine ih.templateParts (fun p hp => ?_) h
    rcases List.mem_cons.mp hp with rfl | hp
    · trivial
    · exact hdone p hp
  · obtain ⟨⟨e, rest'⟩, he, h⟩ := Option.bind_eq_some_iff.mp h
    dsimp only at h
    split at h
    · refine ih.templateParts (fun p hp => ?_) h
      rcases List.mem_cons.mp hp with rfl | hp
      · exact ih.expression he
      · exact htrimmed _ p hp
    · cases h
  · obtain ⟨⟨part, rest'⟩, hpart, h⟩ := Option.bind_eq_some_iff.mp h
    dsimp only at h
    split at h
    · exact ih.templateParts (List.forall_mem_cons.mpr ⟨ih.directive hpart, htrimmed _⟩) h
    · cases h
  · split at h
    · obtain ⟨rfl, -⟩ := Prod.mk.inj (Option.some_inj.mp h)
      exact fun p hp => hdone p (List.mem_reverse.mp hp)
    · cases h

theorem succ_directive (ih : ReadsProper fuel) {p : TemplatePart}
    (h : Parser.directive (fuel + 1) ts = some (p, rest)) : p.Proper := by
  rw [Parser.directive] at h
  split at h
  · obtain ⟨⟨condition, rest'⟩, hcondition, h⟩ := Option.bind_eq_some_iff.mp h
    obtain ⟨rfl, -⟩ := Prod.mk.inj (Option.some_inj.mp h)
    exact ih.expression hcondition
  · obtain ⟨rfl, -⟩ := Prod.mk.inj (Option.some_inj.mp h)
    trivial
  · obtain ⟨rfl, -⟩ := Prod.mk.inj (Option.some_inj.mp h)
    trivial
  · obtain ⟨⟨keyName, valueName, rest'⟩, -, h⟩ := Option.bind_eq_some_iff.mp h
    obtain ⟨⟨collection, rest'⟩, hcollection, h⟩ := Option.bind_eq_some_iff.mp h
    obtain ⟨rfl, -⟩ := Prod.mk.inj (Option.some_inj.mp h)
    exact ih.expression hcollection
  · obtain ⟨rfl, -⟩ := Prod.mk.inj (Option.some_inj.mp h)
    trivial
  · cases h

theorem succ (ih : ReadsProper fuel) : ReadsProper (fuel + 1) where
  expression := ih.succ_expression
  binary := ih.succ_binary
  binaryRest := ih.succ_binaryRest
  operand := ih.succ_operand
  term := ih.succ_term
  steps := ih.succ_steps
  tupleItems := ih.succ_tupleItems
  objectItems := ih.succ_objectItems
  loop := ih.succ_loop
  templateParts := ih.succ_templateParts
  directive := ih.succ_directive

end ReadsProper

/-- **Whatever is read is proper.** -/
theorem readsProper (fuel : Nat) : ReadsProper fuel := by
  induction fuel with
  | zero => exact .zero
  | succ fuel ih => exact ih.succ

/-! ### Reading files -/

/-- The values of all attributes are proper. -/
def ProperAttributes (as : List Attribute) : Prop := ∀ a ∈ as, a.value.Proper false

theorem properAttributes_singleLine {as : List Attribute} (h : singleLine ts = some (as, rest)) :
    ProperAttributes as := by
  unfold singleLine at h
  split at h
  · obtain ⟨⟨value, rest'⟩, hvalue, h⟩ := Option.bind_eq_some_iff.mp h
    dsimp only at h
    split at h
    · obtain ⟨rfl, -⟩ := Prod.mk.inj (Option.some_inj.mp h)
      exact List.forall_mem_singleton.mpr ((readsProper _).expression hvalue)
    · cases h
  · cases h

theorem proper_bodyItems : ∀ {fuel : Nat} {nested : Bool} {ts rest : List Token}
    {as as' : List Attribute} {bs bs' : List Block},
    ProperAttributes as → (∀ b ∈ bs, ProperAttributes b.attributes) →
    bodyItems fuel nested as bs ts = some (as', bs', rest) →
    ProperAttributes as' ∧ ∀ b ∈ bs', ProperAttributes b.attributes := by
  intro fuel
  induction fuel with
  | zero =>
    intro nested ts rest as as' bs bs' _ _ h
    simp [bodyItems] at h
  | succ fuel ih =>
    intro nested ts rest as as' bs bs' has hbs h
    have hdone : ProperAttributes as.reverse ∧ ∀ b ∈ bs.reverse, ProperAttributes b.attributes :=
      ⟨fun a ha => has a (List.mem_reverse.mp ha), fun b hb => hbs b (List.mem_reverse.mp hb)⟩
    unfold bodyItems at h
    split at h
    · split at h
      · cases h
      · simp only [Option.some_inj, Prod.mk.injEq] at h
        obtain ⟨rfl, rfl, -⟩ := h
        exact hdone
    · exact ih has hbs h
    · split at h
      · simp only [Option.some_inj, Prod.mk.injEq] at h
        obtain ⟨rfl, rfl, -⟩ := h
        exact hdone
      · cases h
    · obtain ⟨⟨value, rest'⟩, hvalue, h⟩ := Option.bind_eq_some_iff.mp h
      obtain ⟨rest'', -, h⟩ := Option.bind_eq_some_iff.mp h
      split at h
      · cases h
      · refine ih (List.forall_mem_cons.mpr ⟨?_, has⟩) hbs h
        exact (readsProper _).expression hvalue
    · obtain ⟨⟨labels, rest'⟩, -, h⟩ := Option.bind_eq_some_iff.mp h
      dsimp only at h
      split at h
      case h_4 =>
        obtain ⟨⟨inner, rest'⟩, hinner, h⟩ := Option.bind_eq_some_iff.mp h
        simp only [Option.pure_def, Option.bind_eq_bind, Option.bind_some] at h
        obtain ⟨rest'', -, h⟩ := Option.bind_eq_some_iff.mp h
        refine ih has (List.forall_mem_cons.mpr ⟨?_, hbs⟩) h
        exact properAttributes_singleLine hinner
      all_goals
        obtain ⟨⟨inner, innerBlocks, rest'⟩, hinner, h⟩ := Option.bind_eq_some_iff.mp h
        obtain ⟨rest'', -, h⟩ := Option.bind_eq_some_iff.mp h
        refine ih has (List.forall_mem_cons.mpr ⟨?_, hbs⟩) h
        exact (ih (by simp [ProperAttributes]) (by simp) hinner).1
    · cases h

end Parser

/-- **The attributes of the blocks of a file are proper.** -/
theorem Body.proper_parse? {text : String} {body : Body} (h : Body.parse? text = some body) :
    ∀ b ∈ body.blocks, Parser.ProperAttributes b.attributes := by
  rw [Body.parse?] at h
  obtain ⟨ts, -, h⟩ := Option.bind_eq_some_iff.mp h
  obtain ⟨⟨as, bs, rest⟩, hitems, h⟩ := Option.bind_eq_some_iff.mp h
  obtain rfl := Option.some_inj.mp h
  exact (Parser.proper_bodyItems (fun _ ha => absurd ha List.not_mem_nil)
    (fun _ hb => absurd hb List.not_mem_nil) hitems).2

end SolidityCanvas.Config
