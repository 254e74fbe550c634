/-
What an evaluation cannot find.

Evaluation looks up variables and functions.  A fault may say that one of them
was not found (`EvalFault.isAbout`); every kind of outcome adds only faults of
other kinds to those of its parts (`Outcome.Resolves`).  So what an expression
does not find is one of the variables it reads or one of the functions it calls:

* `Expr.resolves_eval`: in a scope that has them all, no fault says that
  something was not found.
-/
import Mathlib.Tactic.SplitIfs
import SolidityCanvas.Config.Eval
import SolidityCanvas.Proofs.Config.Calls

namespace SolidityCanvas.Config

/-- What is looked up by its name. -/
inductive Lookup
  | variable
  | function
  deriving DecidableEq

/-- The fault is that something was not found. -/
@[simp] def EvalFault.isAbout : EvalFault → Lookup → Bool
  | .variablesNotAllowed, w | .unknownVariable, w => w == .variable
  | .functionsNotAllowed, w | .unknownFunction, w => w == .function
  | _, _ => false

/-- No fault is that something was not found. -/
def Resolved (w : Lookup) (fs : List EvalFault) : Prop := ∀ f ∈ fs, f.isAbout w = false

/-- No fault of the outcome is that something was not found. -/
def Outcome.Resolves (w : Lookup) (o : Outcome) : Prop := Resolved w o.faults

/-! ### Faults of the parts -/

section faults

variable {w : Lookup} {o o' : Outcome}

@[simp] theorem resolved_nil : Resolved w [] := by simp [Resolved]

@[simp] theorem resolved_cons {f : EvalFault} {fs : List EvalFault} :
    Resolved w (f :: fs) ↔ f.isAbout w = false ∧ Resolved w fs := List.forall_mem_cons

@[simp] theorem resolves_nil (v : Value) : Outcome.Resolves w ⟨v, []⟩ := by simp [Outcome.Resolves]

@[simp] theorem resolves_fault {f : EvalFault} :
    (Outcome.fault f).Resolves w ↔ f.isAbout w = false := by
  simp [Outcome.Resolves, Outcome.fault]

@[simp] theorem resolves_mk {v : Value} {fs : List EvalFault} :
    Outcome.Resolves w ⟨v, fs⟩ ↔ Resolved w fs := Iff.rfl

theorem Outcome.Resolves.after {earlier : List EvalFault} (ho : o.Resolves w)
    (h : Resolved w earlier) : (o.after earlier).Resolves w :=
  List.forall_mem_append.mpr ⟨h, ho⟩

theorem resolved_own {f : EvalFault} (hf : f.isAbout w = false) : Resolved w [f] := by
  simpa using hf

theorem resolves_indexSequence (items : Option (List Value)) (t : ValueType) (key : Value) :
    (indexSequence items t key).Resolves w := by
  unfold indexSequence
  split
  · exact resolves_fault.mpr rfl
  · split
    · simp
    · split <;> simp
  · simp

theorem resolves_indexNamed (entries : Option (List (String × Value))) (t : ValueType)
    (key : Value) : (indexNamed entries t key).Resolves w := by
  unfold indexNamed
  split
  · exact resolves_fault.mpr rfl
  · split
    · simp
    · split <;> simp
  · simp

theorem resolves_indexValue (v key : Value) : (indexValue v key).Resolves w := by
  unfold indexValue
  split
  · exact resolves_fault.mpr rfl
  split
  · exact resolves_fault.mpr rfl
  split
  · simp
  · split <;>
      first
        | exact resolves_indexSequence _ _ _
        | exact resolves_indexNamed _ _ _
        | exact resolves_fault.mpr rfl

theorem resolves_attributeOf (v : Value) (name : String) : (attributeOf v name).Resolves w := by
  unfold attributeOf
  dsimp only
  split <;> (try split) <;> simp

theorem resolves_takeStep (v : Value) (s : Step) : (takeStep v s).Resolves w := by
  rcases s with name | key
  · exact resolves_attributeOf v name
  · exact resolves_indexValue v key

theorem resolves_takeSteps (steps : List Step) : ∀ v : Value, (takeSteps v steps).Resolves w := by
  induction steps with
  | nil => exact fun v => resolves_nil v
  | cons s rest ih =>
    intro v
    rw [takeSteps]
    split
    · exact ih _
    · exact resolves_takeStep v s

theorem Outcome.Resolves.steps (ho : o.Resolves w) (steps : List Step) : (o.steps steps).Resolves w :=
  (resolves_takeSteps steps o.value).after ho

/-- The faults of an operator that one operand decides are those of an
operand. -/
theorem faults_shortcut {op : BinaryOp} {a b r : Outcome} (h : shortcut op a b = some r) :
    r.faults = a.faults ∨ r.faults = b.faults := by
  unfold shortcut at h
  dsimp only at h
  split_ifs at h
  · exact .inl (Option.some.inj h ▸ rfl)
  · exact .inr (Option.some.inj h ▸ rfl)
  · exact .inl (Option.some.inj h ▸ rfl)
  · exact .inr (Option.some.inj h ▸ rfl)

theorem resolves_binaryOutcome (op : BinaryOp) (ho : o.Resolves w) (ho' : o'.Resolves w) :
    (binaryOutcome op o o').Resolves w := by
  have hboth : Resolved w (o.faults ++ o'.faults) := List.forall_mem_append.mpr ⟨ho, ho'⟩
  unfold binaryOutcome
  dsimp only
  split
  · split
    · rename_i r hr
      rcases faults_shortcut hr with hfaults | hfaults
      · exact fun f hf => ho f (hfaults ▸ hf)
      · exact fun f hf => ho' f (hfaults ▸ hf)
    split
    · exact hboth
    · split
      · simp
      · exact resolved_own rfl
  · exact List.forall_mem_cons.mpr ⟨rfl, List.forall_mem_cons.mpr ⟨rfl, hboth⟩⟩
  · exact List.forall_mem_cons.mpr ⟨rfl, hboth⟩

theorem resolves_unaryOutcome (op : UnaryOp) (ho : o.Resolves w) :
    (unaryOutcome op o).Resolves w := by
  unfold unaryOutcome
  dsimp only
  split
  · exact List.forall_mem_append.mpr ⟨ho, resolved_own rfl⟩
  split
  · exact ho
  · split <;> simp

theorem resolves_takeBranch {t : ValueType} {earlier : List EvalFault} (ho : o.Resolves w)
    (h : Resolved w earlier) : (takeBranch t o earlier).Resolves w := by
  have hboth : Resolved w (earlier ++ o.faults) := List.forall_mem_append.mpr ⟨h, ho⟩
  unfold takeBranch
  split
  · exact hboth
  · exact List.forall_mem_append.mpr ⟨hboth, resolved_own rfl⟩

theorem resolves_conditionalOutcome {condition : Outcome} (hc : condition.Resolves w)
    (ho : o.Resolves w) (ho' : o'.Resolves w) : (conditionalOutcome condition o o').Resolves w := by
  unfold conditionalOutcome
  split
  · exact resolves_fault.mpr rfl
  dsimp only
  split
  · exact List.forall_mem_append.mpr ⟨hc, resolved_own rfl⟩
  split
  · exact List.forall_mem_append.mpr ⟨hc, by simp⟩
  split
  · exact resolves_takeBranch ho hc
  · exact resolves_takeBranch ho' hc
  · exact List.forall_mem_append.mpr ⟨hc, resolved_own rfl⟩

theorem resolves_textAdd {t : TextOutcome} (ht : Resolved w t.faults) (ho : o.Resolves w) :
    Resolved w (t.add o).faults := by
  have hboth : Resolved w (t.faults ++ o.faults) := List.forall_mem_append.mpr ⟨ht, ho⟩
  have hmore : Resolved w (t.faults ++ o.faults ++ [.invalidInterpolation]) :=
    List.forall_mem_append.mpr ⟨hboth, resolved_own rfl⟩
  unfold TextOutcome.add
  dsimp only
  split
  · exact hmore
  split
  · exact hboth
  split
  · split <;> exact hboth
  · exact hmore

theorem resolves_text {os : List Outcome} (h : ∀ o ∈ os, o.Resolves w) :
    ((os.foldl TextOutcome.add {}).outcome).Resolves w := by
  have hfold : ∀ {os : List Outcome}, (∀ o ∈ os, o.Resolves w) → ∀ {t : TextOutcome},
      Resolved w t.faults → Resolved w (os.foldl TextOutcome.add t).faults := by
    intro os
    induction os with
    | nil => exact fun _ _ ht => ht
    | cons o os ih =>
      intro h t ht
      obtain ⟨ho, hos⟩ := List.forall_mem_cons.mp h
      exact ih hos (resolves_textAdd ht ho)
  exact hfold h (by simp)

theorem resolves_joinItems (vs : List Value) : ∀ (text : String) {fs : List EvalFault},
    Resolved w fs → (joinItems text fs vs).Resolves w := by
  induction vs with
  | nil => exact fun _ _ h => h
  | cons v vs ih =>
    intro text fs h
    have hmore : Resolved w (fs ++ [.invalidInterpolation]) :=
      List.forall_mem_append.mpr ⟨h, resolved_own rfl⟩
    rw [joinItems]
    split
    · exact ih _ hmore
    split
    · exact ih _ hmore
    · exact ih _ h
    · exact h

theorem resolves_joinedOutcome (ho : o.Resolves w) : (joinedOutcome o).Resolves w := by
  unfold joinedOutcome
  split
  · exact resolves_joinItems _ _ ho
  · exact ho

theorem resolves_convertArguments (f : Function) {os : List Outcome} (h : ∀ o ∈ os, o.Resolves w) :
    ∀ i, Resolved w (convertArguments f i os).2 := by
  induction os with
  | nil => simp [convertArguments]
  | cons o os ih =>
    intro i
    obtain ⟨ho, hos⟩ := List.forall_mem_cons.mp h
    have hrest := ih hos (i + 1)
    rw [convertArguments]
    dsimp only
    split
    · exact List.forall_mem_append.mpr ⟨ho, hrest⟩
    · exact List.forall_mem_append.mpr ⟨ho, List.forall_mem_cons.mpr ⟨rfl, hrest⟩⟩

theorem resolves_callOutcome (f : Function) {os : List Outcome} (h : ∀ o ∈ os, o.Resolves w) :
    (callOutcome f os).Resolves w := by
  unfold callOutcome
  split
  · exact resolves_fault.mpr rfl
  split
  · exact resolves_fault.mpr rfl
  dsimp only
  split
  · exact resolves_convertArguments f h 0
  split
  · simp
  · split <;> simp

theorem resolves_expandedItems (ho : o.Resolves w) {r : Outcome} (h : expandedItems o = .error r) :
    r.Resolves w := by
  unfold expandedItems at h
  split at h
  · cases h; exact ho
  · split at h <;> cases h <;> simp

/-- A function is found, if it is functions that are looked for. -/
def Scope.Provides (w : Lookup) (s : Scope) (n : String) : Prop :=
  w = .function → ∃ fs, s.functions = some fs ∧ ∃ f ∈ fs, f.name = n

theorem Scope.Provides.enterLoop {s : Scope} {n : String} (h : s.Provides w n)
    (keyName : Option String) (valueName : String) (k v : Value) :
    (s.enterLoop keyName valueName k v).Provides w n := by
  cases keyName <;> exact h

theorem resolves_callNamed {scope : Scope} {name : String} (hname : scope.Provides w name)
    {os : List Outcome} (expand : Bool) (h : ∀ o ∈ os, o.Resolves w) :
    (callNamed scope name os expand).Resolves w := by
  unfold callNamed
  split
  · rename_i hnone
    refine resolves_fault.mpr (beq_eq_false_iff_ne.mpr fun hw => ?_)
    obtain ⟨fs, hfs, _⟩ := hname hw
    rw [hnone] at hfs
    cases hfs
  rename_i fs hfs
  split
  · rename_i hnone
    refine resolves_fault.mpr (beq_eq_false_iff_ne.mpr fun hw => ?_)
    obtain ⟨_, hsome, f, hf, hn⟩ := hname hw
    obtain rfl : fs = _ := Option.some.inj (hfs.symm.trans hsome)
    exact absurd (beq_iff_eq.mpr hn) (List.find?_eq_none.mp hnone f hf)
  split
  · have hlast : (os.getLast?.getD ⟨.anything, []⟩).Resolves w := by
      cases hos : os.getLast? with
      | none => exact resolves_nil _
      | some o => exact h o (List.mem_of_getLast? hos)
    split
    · exact resolves_expandedItems hlast ‹_›
    · refine resolves_callOutcome _ fun o ho => ?_
      rcases List.mem_append.mp ho with ho | ho
      · exact h o (List.dropLast_subset _ ho)
      · obtain ⟨v, -, rfl⟩ := List.mem_map.mp ho
        exact resolves_nil v
  · exact resolves_callOutcome _ h

theorem resolves_objectAdd {b : ObjectOutcome} (hb : Resolved w b.faults) (ho : o.Resolves w)
    (ho' : o'.Resolves w) : Resolved w (b.add o o').faults := by
  have hall : Resolved w (b.faults ++ o.faults ++ o'.faults) :=
    List.forall_mem_append.mpr ⟨List.forall_mem_append.mpr ⟨hb, ho⟩, ho'⟩
  unfold ObjectOutcome.add
  dsimp only
  split
  · exact List.forall_mem_append.mpr ⟨hall, by simp⟩
  split
  · exact List.forall_mem_append.mpr ⟨hall, resolved_own rfl⟩
  split
  · exact List.forall_mem_append.mpr ⟨hall, resolved_own rfl⟩
  · exact hall
  · exact List.forall_mem_append.mpr ⟨hall, by simp⟩

theorem resolves_object {items : List (Outcome × Outcome)}
    (h : ∀ p ∈ items, p.1.Resolves w ∧ p.2.Resolves w) :
    ((items.foldl (fun b (k, v) => b.add k v) ({} : ObjectOutcome)).outcome).Resolves w := by
  have hfold : ∀ {items : List (Outcome × Outcome)},
      (∀ p ∈ items, p.1.Resolves w ∧ p.2.Resolves w) → ∀ {b : ObjectOutcome}, Resolved w b.faults →
        Resolved w (items.foldl (fun b (k, v) => b.add k v) b).faults := by
    intro items
    induction items with
    | nil => exact fun _ _ hb => hb
    | cons p items ih =>
      intro h b hb
      obtain ⟨hp, hitems⟩ := List.forall_mem_cons.mp h
      exact ih hitems (resolves_objectAdd hb hp.1 hp.2)
  exact hfold h (by simp)

theorem resolves_inclusion (makesObject : Bool) {c : Option Outcome} (hc : ∀ o ∈ c, o.Resolves w) :
    Resolved w (inclusion makesObject c).2 ∧
      ∀ own, (inclusion makesObject c).1 = .undecided own → Resolved w own := by
  cases c with
  | none => simp [inclusion]
  | some o =>
    refine ⟨hc o rfl, fun own h => ?_⟩
    unfold inclusion at h
    dsimp only at h
    split at h
    · cases h; exact resolved_own rfl
    split at h
    · cases h; simp
    split at h
    · cases h; exact resolved_own rfl
    · split at h <;> cases h
    · cases h; simp

theorem resolves_undecided {l : LoopOutcome} {found own : List EvalFault}
    (hl : Resolved w l.faults) (hfound : Resolved w found) (hown : Resolved w own) :
    Resolved w (l.undecided found own).faults := by
  refine List.forall_mem_append.mpr ⟨List.forall_mem_append.mpr ⟨hl, hfound⟩, ?_⟩
  split
  · exact hown
  · simp

theorem resolves_addEntry {l : LoopOutcome} {group : Bool} {key : String} {v : Value}
    {found : List EvalFault} (hl : Resolved w l.faults) (hfound : Resolved w found) :
    Resolved w (l.addEntry group key v found).faults := by
  have hboth : Resolved w (l.faults ++ found) := List.forall_mem_append.mpr ⟨hl, hfound⟩
  unfold LoopOutcome.addEntry
  split
  · exact hboth
  split
  · exact hboth
  · exact List.forall_mem_append.mpr ⟨hboth, resolved_own rfl⟩

theorem resolves_round {l : LoopOutcome} {group : Bool} {condition key : Option Outcome}
    (hl : Resolved w l.faults) (hcondition : ∀ o ∈ condition, o.Resolves w)
    (hkey : ∀ o ∈ key, o.Resolves w) (ho : o.Resolves w) :
    Resolved w (l.round group condition key o).faults := by
  obtain ⟨hfound, hown⟩ := resolves_inclusion key.isSome hcondition
  unfold LoopOutcome.round
  generalize inclusion key.isSome condition = i at hfound hown
  obtain ⟨verdict, found⟩ := i
  dsimp only at hfound hown ⊢
  cases verdict with
  | undecided own => exact resolves_undecided hl hfound (hown own rfl)
  | excluded => exact List.forall_mem_append.mpr ⟨hl, hfound⟩
  | included =>
    cases key with
    | none => exact List.forall_mem_append.mpr ⟨List.forall_mem_append.mpr ⟨hl, hfound⟩, ho⟩
    | some k =>
      have hboth : Resolved w (found ++ k.faults) :=
        List.forall_mem_append.mpr ⟨hfound, hkey k rfl⟩
      dsimp only
      split
      · exact resolves_undecided hl hboth (resolved_own rfl)
      split
      · exact resolves_undecided hl hboth (by simp)
      split
      · exact resolves_addEntry hl (List.forall_mem_append.mpr ⟨hboth, ho⟩)
      · exact resolves_undecided hl hboth (resolved_own rfl)

theorem resolves_conditionFaults {c : Option Outcome} (hc : ∀ o ∈ c, o.Resolves w)
    {fs : List EvalFault} (h : conditionFaults c = .error fs) : Resolved w fs := by
  cases c with
  | none => cases h
  | some o =>
    have ho := hc o rfl
    unfold conditionFaults at h
    dsimp only at h
    split at h
    · cases h; exact List.forall_mem_append.mpr ⟨ho, resolved_own rfl⟩
    split at h
    · cases h; exact List.forall_mem_append.mpr ⟨ho, resolved_own rfl⟩
    split at h
    · cases h; exact ho
    · cases h

theorem resolves_loopOutcome {makesObject group : Bool}
    {condition key : Value → Value → Option Outcome}
    {value : Value → Value → Outcome} (ho : o.Resolves w)
    (hcondition : ∀ k v, ∀ c ∈ condition k v, c.Resolves w)
    (hkey : ∀ k v, ∀ c ∈ key k v, c.Resolves w) (hvalue : ∀ k v, (value k v).Resolves w) :
    (loopOutcome o makesObject group condition key value).Resolves w := by
  have hrounds : ∀ (entries : List (Value × Value)) {l : LoopOutcome}, Resolved w l.faults →
      Resolved w (entries.foldl (fun l e =>
        l.round group (condition e.1 e.2) (key e.1 e.2) (value e.1 e.2)) l).faults := by
    intro entries
    induction entries with
    | nil => exact fun h => h
    | cons e entries ih =>
      exact fun h => ih (resolves_round h (hcondition _ _) (hkey _ _) (hvalue _ _))
  unfold loopOutcome
  split
  · exact List.forall_mem_append.mpr ⟨ho, resolved_own rfl⟩
  split
  · exact ho
  split <;> try exact List.forall_mem_append.mpr ⟨ho, resolved_own rfl⟩
  · exact ho
  split
  · exact List.forall_mem_append.mpr ⟨ho, resolved_own rfl⟩
  split
  · exact List.forall_mem_append.mpr ⟨ho, resolves_conditionFaults (hcondition _ _) ‹_›⟩
  · exact hrounds _ ho

theorem resolved_flatMap {α : Type} {each : Value → Outcome} (heach : ∀ v, (each v).Resolves w)
    (as : List α) (g : α → Value) :
    Resolved w ((as.map fun a => each (g a)).flatMap (·.faults)) := by
  intro f hf
  obtain ⟨r, hr, hf⟩ := List.mem_flatMap.mp hf
  obtain ⟨a, -, rfl⟩ := List.mem_map.mp hr
  exact heach _ f hf

/-- What a splat collects from the elements. -/
theorem resolves_collected {each : Value → Outcome} (heach : ∀ v, (each v).Resolves w)
    (items : List Value) (asList : Bool) (element : ValueType) : Outcome.Resolves w
      (if !((items.map each).flatMap (·.faults)).isEmpty then
        ⟨.anything, (items.map each).flatMap (·.faults)⟩
      else if !asList then ⟨.tuple ((items.map each).map (·.value)), []⟩
      else match (items.map each).map (·.value) with
        | [] => ⟨.list (each (.unknown element)).value.type [], (each (.unknown element)).faults⟩
        | v :: _ => ⟨.list v.type ((items.map each).map (·.value)), []⟩) := by
  split
  · exact resolved_flatMap heach items id
  split
  · exact resolves_nil _
  split
  · exact heach _
  · exact resolves_nil _

theorem resolves_splatOutcome {each : Value → Outcome} (ho : o.Resolves w)
    (heach : ∀ v, (each v).Resolves w) : (splatOutcome o each).Resolves w := by
  unfold splatOutcome
  dsimp only
  split
  · exact ho
  split
  · exact resolves_fault.mpr rfl
  · exact resolves_fault.mpr rfl
  · exact resolves_fault.mpr rfl
  · simp
  · simp
  · exact resolves_collected heach _ _ _
  · exact resolves_collected heach _ _ _
  · exact resolves_collected heach _ _ _
  · exact heach _
  · exact heach _
  · exact resolved_flatMap heach _ _
  · exact heach _
  · exact resolves_collected heach _ _ .dynamic

end faults

/-! ### Scopes -/

namespace Scope

variable {w : Lookup} {s s' : Scope} {n m : String}

/-- The scope has a value for a name. -/
def Has (s : Scope) (n : String) : Prop := ∃ v, lookupVariable s n = ⟨v, []⟩

theorem lookupVariable_bind_self (s : Scope) (n : String) (v : Value) :
    lookupVariable (s.bind n v) n = ⟨v, []⟩ := by
  simp [lookupVariable, bind]

theorem has_bind_self (s : Scope) (n : String) (v : Value) : (s.bind n v).Has n :=
  ⟨v, lookupVariable_bind_self s n v⟩

theorem Has.bind (h : s.Has m) (n : String) (v : Value) : (s.bind n v).Has m := by
  by_cases hm : m = n
  · exact hm ▸ has_bind_self s n v
  · obtain ⟨w, hw⟩ := h
    cases hs : s.bindings with
    | none => simp [lookupVariable, hs, Outcome.fault] at hw
    | some bindings =>
      refine ⟨w, ?_⟩
      simpa [lookupVariable, Scope.bind, hs, List.lookup_cons, beq_eq_false_iff_ne.mpr hm] using hw

/-- Names of a loop have values inside it, and so have those outside. -/
theorem has_enterLoop {bound : List String} (keyName : Option String) (valueName : String)
    (k v : Value) (hbound : ∀ n ∈ bound, s.Has n) :
    ∀ n ∈ valueName :: keyName.toList ++ bound, (s.enterLoop keyName valueName k v).Has n := by
  intro n hn
  unfold enterLoop
  simp only [List.cons_append, List.mem_cons, List.mem_append, Option.mem_toList] at hn
  rcases hn with rfl | hn | hn
  · exact has_bind_self _ _ _
  · rw [hn]
    exact (has_bind_self _ _ _).bind _ _
  · cases keyName with
    | none => exact (hbound n hn).bind _ _
    | some key => exact ((hbound n hn).bind _ _).bind _ _

theorem Has.enterLoop (h : s.Has n) (keyName : Option String) (valueName : String) (k v : Value) :
    (s.enterLoop keyName valueName k v).Has n := by
  cases keyName with
  | none => exact h.bind _ _
  | some key => exact (h.bind _ _).bind _ _

/-- A variable is found, if it is variables that are looked for. -/
def Finds (w : Lookup) (s : Scope) (n : String) : Prop := w = .variable → s.Has n

theorem Finds.resolves (h : s.Finds w n) : (lookupVariable s n).Resolves w := by
  have hfound : w = .variable → (lookupVariable s n).faults = [] := by
    intro hw
    obtain ⟨v, hv⟩ := h hw
    rw [hv]
  unfold lookupVariable at hfound ⊢
  split
  · rename_i hnone
    rw [hnone] at hfound
    exact resolves_fault.mpr (beq_eq_false_iff_ne.mpr fun hw =>
      absurd (hfound hw) (by simp [Outcome.fault]))
  · rename_i b hsome
    rw [hsome] at hfound
    dsimp only at hfound ⊢
    split
    · rename_i hnone
      rw [hnone] at hfound
      exact resolves_fault.mpr (beq_eq_false_iff_ne.mpr fun hw =>
        absurd (hfound hw) (by simp [Outcome.fault]))
    · exact resolves_nil _

end Scope

namespace Expr

open Scope

variable {w : Lookup}

/-! ### Faults of evaluation -/

mutual

/-- **In a scope that has all variables and functions of an expression, no fault
of it is that one was not found.**  Names that are bound around the expression
are among those of the scope. -/
theorem resolves_eval : (e : Expr) → {bound : List String} → {s : Scope} →
    (∀ r ∈ e.referencesUnder bound, s.Finds w r.root) → (∀ n ∈ bound, s.Finds w n) →
    (∀ n, e.Calls n → s.Provides w n) → (e.eval s).Resolves w
  | literal v, _, _, _, _, _ => resolves_nil v
  | template parts, _, _, h, hbound, hcalls => by
    rw [eval]
    exact resolves_text (resolves_evalList parts h hbound fun e he n hn =>
      hcalls n (calls_of_mem_children he hn))
  | wrapped e, _, _, h, hbound, hcalls => by
    rw [eval]
    exact resolves_eval e h hbound fun n hn =>
      hcalls n (calls_of_mem_children (List.mem_singleton_self e) hn)
  | joined e, _, _, h, hbound, hcalls => by
    rw [eval]
    exact resolves_joinedOutcome (resolves_eval e h hbound fun n hn =>
      hcalls n (calls_of_mem_children (List.mem_singleton_self e) hn))
  | reference root steps, bound, s, h, hbound, _ => by
    have hroot : s.Finds w root := by
      by_cases hmem : bound.contains root = true
      · exact hbound root (List.contains_iff_mem.mp hmem)
      · rw [referencesUnder, if_neg hmem] at h
        exact h _ (List.mem_singleton_self _)
    rw [eval]
    split
    · exact hroot.resolves.steps steps
    · exact hroot.resolves
  | relative e steps, _, _, h, hbound, hcalls => by
    rw [eval]
    exact (resolves_eval e h hbound fun n hn =>
      hcalls n (calls_of_mem_children (List.mem_singleton_self e) hn)).steps steps
  | call name args expand, _, _, h, hbound, hcalls => by
    rw [eval]
    exact resolves_callNamed (hcalls name (calls_call _ _ _)) expand
      (resolves_evalList args h hbound fun e he n hn => hcalls n (calls_of_mem_children he hn))
  | conditional c t f, _, _, h, hbound, hcalls => by
    simp only [referencesUnder, List.forall_mem_append] at h
    have hchild : ∀ k ∈ [c, t, f], ∀ n, k.Calls n → _ := fun k hk n hn =>
      hcalls n (calls_of_mem_children hk hn)
    rw [eval]
    exact resolves_conditionalOutcome (resolves_eval c h.1.1 hbound (hchild c (by simp)))
      (resolves_eval t h.1.2 hbound (hchild t (by simp)))
      (resolves_eval f h.2 hbound (hchild f (by simp)))
  | binary op l r, _, _, h, hbound, hcalls => by
    simp only [referencesUnder, List.forall_mem_append] at h
    have hchild : ∀ k ∈ [l, r], ∀ n, k.Calls n → _ := fun k hk n hn =>
      hcalls n (calls_of_mem_children hk hn)
    rw [eval]
    exact resolves_binaryOutcome op (resolves_eval l h.1 hbound (hchild l (by simp)))
      (resolves_eval r h.2 hbound (hchild r (by simp)))
  | unary op e, _, _, h, hbound, hcalls => by
    rw [eval]
    exact resolves_unaryOutcome op (resolves_eval e h hbound fun n hn =>
      hcalls n (calls_of_mem_children (List.mem_singleton_self e) hn))
  | parens e, _, _, h, hbound, hcalls => by
    rw [eval]
    exact resolves_eval e h hbound fun n hn =>
      hcalls n (calls_of_mem_children (List.mem_singleton_self e) hn)
  | tuple items, _, _, h, hbound, hcalls => by
    rw [eval]
    intro f hf
    obtain ⟨o, ho, hf⟩ := List.mem_flatMap.mp hf
    exact resolves_evalList items h hbound
      (fun e he n hn => hcalls n (calls_of_mem_children he hn)) o ho f hf
  | object items, _, _, h, hbound, hcalls => by
    rw [eval]
    refine resolves_object (resolves_evalItems items h hbound fun i hi n hn => ?_)
    refine hn.elim (fun hn => hcalls n (calls_of_mem_children ?_ hn))
      fun hn => hcalls n (calls_of_mem_children ?_ hn)
    · exact List.mem_append_left _ (List.mem_map_of_mem hi)
    · exact List.mem_append_right _ (List.mem_map_of_mem hi)
  | loop keyName valueName collection key value condition group, bound, s, h, hbound, hcalls => by
    simp only [referencesUnder, List.forall_mem_append] at h
    obtain ⟨⟨⟨hcollection, hkey⟩, hvalue⟩, hcondition⟩ := h
    have hinside (k v : Value) : ∀ n ∈ valueName :: keyName.toList ++ bound,
        (s.enterLoop keyName valueName k v).Finds w n := fun n hn hw =>
      Scope.has_enterLoop keyName valueName k v (fun m hm => hbound m hm hw) n hn
    have hrefs {rs : List Reference} (hrs : ∀ r ∈ rs, s.Finds w r.root) (k v : Value) :
        ∀ r ∈ rs, (s.enterLoop keyName valueName k v).Finds w r.root :=
      fun r hr hw => (hrs r hr hw).enterLoop _ _ _ _
    have hchild {e : Expr} (he : e ∈ collection :: key.toList ++ value :: condition.toList)
        (k v : Value) : ∀ n, e.Calls n → (s.enterLoop keyName valueName k v).Provides w n :=
      fun n hn => (hcalls n (calls_of_mem_children he hn)).enterLoop _ _ _ _
    rw [eval]
    refine resolves_loopOutcome (resolves_eval collection hcollection hbound fun n hn =>
      hcalls n (calls_of_mem_children (List.mem_cons_self ..) hn)) (fun k v => ?_) (fun k v => ?_)
      fun k v => ?_
    · exact resolves_evalOption condition (hrefs hcondition k v) (hinside k v) fun e he =>
        hchild (by simp [Option.mem_def.mp he]) k v
    · exact resolves_evalOption key (hrefs hkey k v) (hinside k v) fun e he =>
        hchild (by simp [Option.mem_def.mp he]) k v
    · exact resolves_eval value (hrefs hvalue k v) (hinside k v) (hchild (by simp) k v)
  | index c k, _, _, h, hbound, hcalls => by
    simp only [referencesUnder, List.forall_mem_append] at h
    have hchild : ∀ e ∈ [c, k], ∀ n, e.Calls n → _ := fun e he n hn =>
      hcalls n (calls_of_mem_children he hn)
    rw [eval]
    exact (resolves_indexValue _ _).after (List.forall_mem_append.mpr
      ⟨resolves_eval c h.1 hbound (hchild c (by simp)),
        resolves_eval k h.2 hbound (hchild k (by simp))⟩)
  | splat source each, _, _, h, hbound, hcalls => by
    simp only [referencesUnder, List.forall_mem_append] at h
    have hchild : ∀ e ∈ [source, each], ∀ n, e.Calls n → _ := fun e he n hn =>
      hcalls n (calls_of_mem_children he hn)
    rw [eval]
    exact resolves_splatOutcome (resolves_eval source h.1 hbound (hchild source (by simp)))
      fun v => resolves_eval each (fun r hr => h.2 r hr) (fun n hn => hbound n hn)
        fun n hn => hchild each (by simp) n hn
  | item, _, _, _, _, _ => by
    rw [eval]
    exact resolves_nil _
  | ambiguousKey e, _, _, _, _, _ => by
    rw [eval]
    exact resolves_fault.mpr rfl

theorem resolves_evalList : (es : List Expr) → {bound : List String} → {s : Scope} →
    (∀ r ∈ referencesOfList es bound, s.Finds w r.root) → (∀ n ∈ bound, s.Finds w n) →
    (∀ e ∈ es, ∀ n, e.Calls n → s.Provides w n) → ∀ o ∈ evalList es s, o.Resolves w
  | [], _, _, _, _, _ => by simp [evalList]
  | e :: es, _, _, h, hbound, hcalls => by
    simp only [referencesOfList, List.forall_mem_append] at h
    obtain ⟨he, hes⟩ := List.forall_mem_cons.mp hcalls
    rw [evalList]
    exact List.forall_mem_cons.mpr
      ⟨resolves_eval e h.1 hbound he, resolves_evalList es h.2 hbound hes⟩

theorem resolves_evalItems : (items : List (Expr × Expr)) → {bound : List String} → {s : Scope} →
    (∀ r ∈ referencesOfItems items bound, s.Finds w r.root) → (∀ n ∈ bound, s.Finds w n) →
    (∀ i ∈ items, ∀ n, i.1.Calls n ∨ i.2.Calls n → s.Provides w n) →
    ∀ p ∈ evalItems items s, p.1.Resolves w ∧ p.2.Resolves w
  | [], _, _, _, _, _ => by simp [evalItems]
  | (k, v) :: items, _, _, h, hbound, hcalls => by
    simp only [referencesOfItems, List.forall_mem_append] at h
    obtain ⟨hitem, hitems⟩ := List.forall_mem_cons.mp hcalls
    rw [evalItems]
    exact List.forall_mem_cons.mpr
      ⟨⟨resolves_eval k h.1.1 hbound fun n hn => hitem n (.inl hn),
        resolves_eval v h.1.2 hbound fun n hn => hitem n (.inr hn)⟩,
        resolves_evalItems items h.2 hbound hitems⟩

theorem resolves_evalOption : (e : Option Expr) → {bound : List String} → {s : Scope} →
    (∀ r ∈ referencesOfOption e bound, s.Finds w r.root) → (∀ n ∈ bound, s.Finds w n) →
    (∀ k ∈ e, ∀ n, k.Calls n → s.Provides w n) → ∀ o ∈ evalOption e s, o.Resolves w
  | none, _, _, _, _, _ => by simp [evalOption]
  | some e, _, _, h, hbound, hcalls => by
    rw [evalOption]
    rintro o ho
    obtain rfl := Option.mem_some_iff.mp ho
    exact resolves_eval e h hbound (hcalls e rfl)

end

end Expr

end SolidityCanvas.Config
