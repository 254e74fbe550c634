/-
Outcomes with definite values.

Without functions, evaluation goes on with an unknown value only after a fault:
where there are no faults, the value is known and in normal form
(`Outcome.Definite`).  Here each kind of outcome is shown to keep this, given
that the outcomes of its parts have it.

* `definite_binaryOutcome`, `definite_conditionalOutcome`: operators and
  conditionals;
* `definite_text`, `definite_object`: texts and objects, put together part by
  part;
* `loopOutcome_cases`: a loop without faults has gone through all its rounds;
* `definite_splatOutcome`: splats.
-/
import SolidityCanvas.Config.Eval
import SolidityCanvas.Proofs.Value.Definite

namespace SolidityCanvas.Config

open Value (IsSequence IsRecord)

/-- Without faults, the value is definite. -/
def Outcome.Definite (o : Outcome) : Prop := o.faults = [] → o.value.Definite

/-! ### Outcomes of the parts -/

section outcomes

variable {o a b : Outcome} {v w key : Value} {fs : List EvalFault} {items : List Value}
  {entries : List (String × Value)} {t : ValueType}

theorem Outcome.definite_mk (h : v.Definite) : Outcome.Definite ⟨v, fs⟩ := fun _ => h

theorem Outcome.definite_of_ne (h : fs ≠ []) : Outcome.Definite ⟨v, fs⟩ := fun hfs => absurd hfs h

theorem definite_fault (f : EvalFault) : (Outcome.fault f).Definite :=
  Outcome.definite_of_ne (List.cons_ne_nil _ _)

theorem Outcome.Definite.after (h : o.Definite) (earlier : List EvalFault) :
    (o.after earlier).Definite := fun hfaults => h (List.append_eq_nil_iff.mp hfaults).2

/-! Steps into values -/

theorem definite_indexSequence (hitems : ∀ w ∈ items, w.Definite) (hkey : key.Definite)
    (hnull : key.isNull = false) : (indexSequence (some items) t key).Definite := by
  unfold indexSequence
  split
  · exact definite_fault _
  · dsimp only
    split
    · rename_i w hw
      refine Outcome.definite_mk (hitems w ?_)
      unfold elementAt? at hw
      split at hw
      · split at hw
        · cases hw
        · exact List.mem_of_getElem? hw
      · cases hw
    · exact definite_fault _
  · rename_i w hne hw
    obtain ⟨n, rfl⟩ := hkey.convert?_number hnull hw
    exact absurd rfl (hne n)

theorem definite_indexNamed (hentries : ∀ e ∈ entries, e.2.Definite) (hkey : key.Definite)
    (hnull : key.isNull = false) : (indexNamed (some entries) t key).Definite := by
  unfold indexNamed
  split
  · exact definite_fault _
  · dsimp only
    split
    · rename_i w hw
      exact Outcome.definite_mk (hentries _ (mem_of_lookup hw))
    · exact definite_fault _
  · rename_i w hne hw
    obtain ⟨s, rfl⟩ := hkey.convert?_string hnull hw
    exact absurd rfl (hne s)

theorem definite_indexValue (hv : v.Definite) (hkey : key.Definite) :
    (indexValue v key).Definite := by
  unfold indexValue
  split
  · exact definite_fault _
  split
  · exact definite_fault _
  rename_i hv' hkey'
  have hnull : key.isNull = false := by simpa using hkey'
  split
  · rename_i hdynamic
    rw [Bool.or_eq_true, beq_iff_eq, beq_iff_eq] at hdynamic
    rcases hdynamic with h | h
    · exact absurd h (hv.type_ne_dynamic (by simpa using hv'))
    · exact absurd h (hkey.type_ne_dynamic hnull)
  cases v with
  | list t items => exact definite_indexSequence (hv.items (.list t items)) hkey hnull
  | tuple items => exact definite_indexSequence (hv.items (.tuple items)) hkey hnull
  | map t entries =>
    exact definite_indexNamed (fun e he => ((hv.entries (.map t entries)).2 e he).2) hkey hnull
  | object entries =>
    exact definite_indexNamed (fun e he => ((hv.entries (.object entries)).2 e he).2) hkey hnull
  | unknown t => exact absurd hv Value.Definite.not_unknown
  | _ => exact definite_fault _

theorem definite_attributeOf (hv : v.Definite) (name : String) : (attributeOf v name).Definite := by
  unfold attributeOf
  dsimp only
  cases v with
  | object entries =>
    dsimp only
    split
    · rename_i w hw
      exact Outcome.definite_mk
        ((hv.entries (.object entries)).2 _ (mem_of_lookup hw)).2
    · exact definite_fault _
  | map t entries =>
    dsimp only
    split
    · rename_i w hw
      exact Outcome.definite_mk ((hv.entries (.map t entries)).2 _ (mem_of_lookup hw)).2
    · exact definite_fault _
  | unknown t => exact absurd hv Value.Definite.not_unknown
  | _ => exact definite_fault _

/-- The key of a step is definite. -/
def Step.Definite : Step → Prop
  | .attribute _ => True
  | .index key => key.Definite

theorem definite_takeStep (hv : v.Definite) {s : Step} (hs : s.Definite) :
    (takeStep v s).Definite := by
  match s, hs with
  | .attribute name, _ => exact definite_attributeOf hv name
  | .index key, hs => exact definite_indexValue hv hs

theorem definite_takeSteps {steps : List Step} (hsteps : ∀ s ∈ steps, s.Definite)
    (hv : v.Definite) : (takeSteps v steps).Definite := by
  induction steps generalizing v with
  | nil => exact Outcome.definite_mk hv
  | cons s steps ih =>
    rw [List.forall_mem_cons] at hsteps
    have hstep := definite_takeStep hv hsteps.1
    unfold takeSteps
    dsimp only
    split
    · rename_i hempty
      exact ih hsteps.2 (hstep (List.isEmpty_iff.mp hempty))
    · exact hstep

theorem Outcome.Definite.steps (ho : o.Definite) {steps : List Step}
    (hsteps : ∀ s ∈ steps, s.Definite) : (o.steps steps).Definite := by
  intro hfaults
  obtain ⟨hown, hsteps'⟩ := List.append_eq_nil_iff.mp hfaults
  exact definite_takeSteps hsteps (ho hown) hsteps'

/-! Operators -/

theorem equality_eq_bool (hv : v.Definite) (hw : w.Definite) : ∃ x, equality v w = .bool x := by
  have hknown : (v.isWhollyKnown && w.isWhollyKnown) = true := by
    rw [hv.isWhollyKnown, hw.isWhollyKnown]
    rfl
  unfold equality
  split
  · exact absurd hv Value.Definite.not_unknown
  · exact absurd hv Value.Definite.not_unknown
  · exact absurd hw Value.Definite.not_unknown
  · exact ⟨_, if_pos hknown⟩

/-- An operand of an operator on truth values or on numbers. -/
inductive IsOperand : ValueType → Value → Prop
  | null (t s : ValueType) : IsOperand t (.null s)
  | bool (x : Bool) : IsOperand .bool (.bool x)
  | number (n : Number) : IsOperand .number (.number n)

theorem isOperand_of_convert? (ht : t = .bool ∨ t = .number) (hv : v.Definite)
    (hw : v.convert? t = some w) : IsOperand t w := by
  have hprimitive : t.isPrimitive = true := by rcases ht with rfl | rfl <;> rfl
  rcases hv.convert?_primitive_or_null hprimitive hw with h | ⟨h, rfl⟩
  · cases w <;> simp only [Value.isNull, Bool.false_eq_true] at h
    exact .null _ _
  · cases w <;> simp only [Value.isPrimitive, Bool.false_eq_true] at h
    · simp [Value.type] at ht
    · exact .number _
    · exact .bool _

theorem definite_arithmetic {op : BinaryOp} {m n : Number} (h : arithmetic op m n = some v) :
    v.Definite := by
  unfold arithmetic at h
  split at h
  all_goals first
    | cases h; done
    | exact Option.some_inj.mp h ▸ .bool _
    | obtain ⟨r, -, rfl⟩ := Option.map_eq_some_iff.mp h
      exact .number r

theorem definite_operate {op : BinaryOp} (hv : v.Definite) (hw : w.Definite)
    (hoperands : operandType op = .bool ∨ operandType op = .number →
      IsOperand (operandType op) v ∧ IsOperand (operandType op) w) {r : Value}
    (h : operate op v w = some r) : r.Definite := by
  obtain ⟨x, hx⟩ := equality_eq_bool hv hw
  unfold operate at h
  split at h
  · rw [hx] at h
    exact Option.some_inj.mp h ▸ .bool _
  · rw [hx] at h
    exact Option.some_inj.mp h ▸ .bool _
  rename_i hequal hnotEqual
  obtain ⟨hv', hw'⟩ := hoperands (by cases op <;> simp_all [operandType])
  generalize operandType op = t at hv' hw'
  cases hv' with
  | null => cases h
  | bool x =>
    cases hw' with
    | null => cases h
    | bool y => exact Option.some_inj.mp h ▸ .bool _
  | number m =>
    cases hw' with
    | null => cases h
    | number n => exact definite_arithmetic h

/-- The outcome of an operand whose value was converted. -/
theorem Outcome.Definite.convert? (ho : o.Definite) (hw : o.value.convert? t = some w) :
    Outcome.Definite ⟨w, o.faults⟩ := fun hfaults => (ho hfaults).convert? hw

theorem definite_shortcut {op : BinaryOp} (ha : a.Definite) (hb : b.Definite) {r : Outcome}
    (h : shortcut op a b = some r) : r.Definite := by
  have hopen {o : Outcome} (ho : o.Definite) (hknown : o.value.isKnown = false) :
      Outcome.Definite ⟨.unknown .bool, o.faults⟩ := fun hfaults => by
    rw [(ho hfaults).isKnown] at hknown
    cases hknown
  unfold shortcut at h
  dsimp only at h
  split_ifs at h with _ _ _ _ hopenA hopenB
  · exact Option.some_inj.mp h ▸ Outcome.definite_mk (.bool _)
  · exact Option.some_inj.mp h ▸ Outcome.definite_mk (.bool _)
  · exact Option.some_inj.mp h ▸ hopen ha (by simp_all)
  · exact Option.some_inj.mp h ▸ hopen hb (by simp_all)

theorem definite_binaryOutcome (op : BinaryOp) (ha : a.Definite) (hb : b.Definite) :
    (binaryOutcome op a b).Definite := by
  unfold binaryOutcome
  dsimp only
  split
  · rename_i x y hx hy
    have hx' := ha.convert? hx
    have hy' := hb.convert? hy
    split
    · rename_i r hr
      exact definite_shortcut hx' hy' hr
    split
    · rename_i hfaults
      exact Outcome.definite_of_ne (by simpa using hfaults)
    · rename_i hfaults
      obtain ⟨hfa, hfb⟩ : a.faults = [] ∧ b.faults = [] := by simpa using hfaults
      split
      · rename_i r hr
        refine Outcome.definite_mk (definite_operate (hx' hfa) (hy' hfb) (fun hop => ?_) hr)
        exact ⟨isOperand_of_convert? hop (ha hfa) hx, isOperand_of_convert? hop (hb hfb) hy⟩
      · exact Outcome.definite_of_ne (List.cons_ne_nil _ _)
  · exact Outcome.definite_of_ne (List.cons_ne_nil _ _)
  · exact Outcome.definite_of_ne (List.cons_ne_nil _ _)

theorem definite_unaryOutcome (op : UnaryOp) (ho : o.Definite) : (unaryOutcome op o).Definite := by
  unfold unaryOutcome
  dsimp only
  split
  · exact Outcome.definite_of_ne (by simp)
  rename_i w hw
  split
  · rename_i hfaults
    exact Outcome.definite_of_ne (by simpa using hfaults)
  rename_i hfaults
  have hfo : o.faults = [] := by simpa using hfaults
  split
  · exact Outcome.definite_mk (.number _)
  · exact Outcome.definite_mk (.bool _)
  · exact Outcome.definite_of_ne (List.cons_ne_nil _ _)
  · rename_i hnumber hbool hnull
    have hoperand := isOperand_of_convert? (by split <;> simp) (ho hfo) hw
    generalize (if op == .negate then ValueType.number else .bool) = t at hoperand
    cases hoperand with
    | null => exact absurd rfl (hnull _)
    | bool x => exact absurd rfl (hbool x)
    | number n => exact absurd rfl (hnumber n)

/-! Conditionals -/

theorem definite_takeBranch (ho : o.Definite) (t : ValueType) (earlier : List EvalFault) :
    (takeBranch t o earlier).Definite := by
  unfold takeBranch
  split
  · rename_i w hw
    exact fun hfaults => ho.convert? hw (List.append_eq_nil_iff.mp hfaults).2
  · exact Outcome.definite_of_ne (by simp)

theorem definite_conditionalOutcome {condition : Outcome} (hc : condition.Definite)
    (ha : a.Definite) (hb : b.Definite) : (conditionalOutcome condition a b).Definite := by
  unfold conditionalOutcome
  split
  · exact definite_fault _
  dsimp only
  split
  · exact Outcome.definite_of_ne (by simp)
  split
  · rename_i hknown
    intro hfaults
    rw [List.append_nil] at hfaults
    rw [(hc hfaults).isKnown] at hknown
    cases hknown
  split
  · exact definite_takeBranch ha _ _
  · exact definite_takeBranch hb _ _
  · exact Outcome.definite_of_ne (by simp)

/-! Texts -/

/-- A text is known, unless there are faults. -/
def TextOutcome.Definite (t : TextOutcome) : Prop := t.faults = [] → t.known = true

theorem TextOutcome.Definite.add {t : TextOutcome} (ht : t.Definite) (ho : o.Definite) :
    (t.add o).Definite := by
  unfold TextOutcome.add
  dsimp only
  split
  · intro hfaults
    simp at hfaults
  split
  · rename_i hknown
    intro hfaults
    have hdefinite := ho (List.append_eq_nil_iff.mp hfaults).2
    simp [hdefinite.isKnown] at hknown
  split
  · split
    · exact fun hfaults => ht (List.append_eq_nil_iff.mp hfaults).1
    · exact fun hfaults => ht (List.append_eq_nil_iff.mp hfaults).1
  · intro hfaults
    simp at hfaults

theorem TextOutcome.Definite.outcome {t : TextOutcome} (ht : t.Definite) : t.outcome.Definite := by
  intro hfaults
  rw [TextOutcome.outcome, if_pos (ht hfaults)]
  exact .text _

theorem definite_text {os : List Outcome} (h : ∀ o ∈ os, o.Definite) :
    (os.foldl TextOutcome.add {}).outcome.Definite := by
  have hfold : ∀ {t : TextOutcome}, t.Definite → (os.foldl TextOutcome.add t).Definite := by
    induction os with
    | nil => exact fun ht => ht
    | cons o os ih =>
      intro t ht
      rw [List.forall_mem_cons] at h
      exact ih h.2 (ht.add h.1)
  exact (hfold fun _ => rfl).outcome

theorem definite_joinItems : ∀ {items : List Value} {text : String} {fs : List EvalFault},
    (fs = [] → ∀ w ∈ items, w.Definite) → (joinItems text fs items).Definite := by
  intro items
  induction items with
  | nil => exact fun _ => Outcome.definite_mk (.text _)
  | cons w items ih =>
    intro text fs h
    have hrest : fs = [] → ∀ w ∈ items, w.Definite := fun hfs =>
      (List.forall_mem_cons.mp (h hfs)).2
    unfold joinItems
    split
    · exact ih fun hfs => absurd hfs (by simp)
    split
    · exact ih fun hfs => absurd hfs (by simp)
    · exact ih hrest
    · rename_i hnull _ u hne hu
      intro hfs
      obtain ⟨s, rfl⟩ := (h hfs w List.mem_cons_self).convert?_string (by simpa using hnull) hu
      exact absurd rfl (hne s)

/-- A tuple is joined to a text. -/
theorem definite_joinedOutcome (ho : o.Definite)
    (htuple : o.faults = [] → ∃ items, o.value = .tuple items) : (joinedOutcome o).Definite := by
  unfold joinedOutcome
  split
  · rename_i items hitems
    exact definite_joinItems fun hfs => (hitems ▸ ho hfs).items (.tuple items)
  · rename_i hne
    intro hfs
    obtain ⟨items, hitems⟩ := htuple hfs
    exact absurd hitems (hne items)

/-! Objects -/

/-- What was collected of an object is known and definite, unless there are
faults. -/
def ObjectOutcome.Definite (b : ObjectOutcome) : Prop :=
  b.faults = [] → b.known = true ∧ ∀ e ∈ b.entries, e.2.Definite

theorem ObjectOutcome.Definite.add {c : ObjectOutcome} (hc : c.Definite) (ha : a.Definite)
    (hb : b.Definite) : (c.add a b).Definite := by
  unfold ObjectOutcome.add
  dsimp only
  split
  · intro hfaults
    simp_all
  rename_i hfaults
  have hfa : a.faults = [] := by simpa using hfaults
  split
  · intro hfaults
    simp at hfaults
  rename_i hnull
  split
  · intro hfaults
    simp at hfaults
  · intro hfaults
    simp only [List.append_eq_nil_iff] at hfaults
    obtain ⟨hknown, hentries⟩ := hc hfaults.1.1
    refine ⟨hknown, List.forall_mem_append.mpr ⟨hentries, ?_⟩⟩
    exact List.forall_mem_singleton.mpr (hb hfaults.2)
  · rename_i w hne hw
    obtain ⟨s, rfl⟩ := (ha hfa).convert?_string (by simpa using hnull) hw
    exact absurd rfl (hne s)

theorem ObjectOutcome.Definite.outcome {c : ObjectOutcome} (hc : c.Definite) :
    c.outcome.Definite := by
  intro hfaults
  obtain ⟨hknown, hentries⟩ := hc hfaults
  rw [ObjectOutcome.outcome, if_pos hknown]
  exact Value.definite_objectOf hentries

theorem definite_object {os : List (Outcome × Outcome)}
    (h : ∀ o ∈ os, o.1.Definite ∧ o.2.Definite) :
    (os.foldl (fun c (k, v) => c.add k v) ({} : ObjectOutcome)).outcome.Definite := by
  have hfold : ∀ {c : ObjectOutcome}, c.Definite →
      (os.foldl (fun c (k, v) => c.add k v) c).Definite := by
    induction os with
    | nil => exact fun hc => hc
    | cons o os ih =>
      intro c hc
      rw [List.forall_mem_cons] at h
      exact ih h.2 (hc.add h.1.1 h.1.2)
  exact (hfold fun _ => ⟨rfl, fun _ he => absurd he List.not_mem_nil⟩).outcome

/-! Loops -/

/-- What was collected in a loop is known and definite, unless there are
faults. -/
def LoopOutcome.Definite (l : LoopOutcome) : Prop :=
  l.faults = [] → l.known = true ∧ (∀ v ∈ l.items, v.Definite) ∧
    ∀ g ∈ l.groups, g.2 ≠ [] ∧ ∀ v ∈ g.2, v.Definite

/-- Where a condition leaves open whether an element is taken, there are
faults. -/
theorem inclusion_undecided {makesObject : Bool} {c : Option Outcome}
    (hc : ∀ o ∈ c, o.Definite) {found own : List EvalFault}
    (h : inclusion makesObject c = (.undecided own, found)) : found ≠ [] ∨ own ≠ [] := by
  cases c with
  | none => cases h
  | some o =>
    rw [inclusion] at h
    obtain ⟨hverdict, rfl⟩ := Prod.mk.inj h
    by_cases hfaults : o.faults = []
    · have hdefinite := hc o rfl hfaults
      refine .inr ?_
      split at hverdict
      · exact Inclusion.undecided.inj hverdict ▸ List.cons_ne_nil _ _
      rename_i hnull
      have hnull : o.value.isNull = false := by simpa using hnull
      split at hverdict
      · rename_i hdynamic
        rw [Bool.and_eq_true, beq_iff_eq] at hdynamic
        exact absurd hdynamic.2 (hdefinite.type_ne_dynamic hnull)
      split at hverdict
      · exact Inclusion.undecided.inj hverdict ▸ List.cons_ne_nil _ _
      · split at hverdict <;> cases hverdict
      · rename_i w hne hw
        obtain ⟨x, rfl⟩ := hdefinite.convert?_bool hnull hw
        exact absurd rfl (hne x)
    · exact .inl hfaults

namespace LoopOutcome.Definite

variable {l : LoopOutcome} {found own : List EvalFault}

theorem undecided (hl : l.Definite) (h : found ≠ [] ∨ own ≠ []) :
    (l.undecided found own).Definite := by
  intro hfaults
  simp only [LoopOutcome.undecided, List.append_eq_nil_iff] at hfaults
  obtain ⟨⟨hown, hfound⟩, hrest⟩ := hfaults
  rw [if_pos (hl hown).1] at hrest
  exact absurd h (by simp [hfound, hrest])

theorem addEntry (hl : l.Definite) (group : Bool) (key : String)
    (hv : found = [] → v.Definite) : (l.addEntry group key v found).Definite := by
  unfold LoopOutcome.addEntry
  split
  · intro hfaults
    obtain ⟨hown, hfound⟩ := List.append_eq_nil_iff.mp hfaults
    obtain ⟨hknown, hitems, hgroups⟩ := hl hown
    refine ⟨hknown, hitems, List.forall_mem_append.mpr ⟨hgroups, ?_⟩⟩
    rw [List.forall_mem_singleton]
    exact ⟨List.cons_ne_nil _ _, List.forall_mem_singleton.mpr (hv hfound)⟩
  · rename_i old hold
    split
    · intro hfaults
      obtain ⟨hown, hfound⟩ := List.append_eq_nil_iff.mp hfaults
      obtain ⟨hknown, hitems, hgroups⟩ := hl hown
      refine ⟨hknown, hitems, fun g hg => ?_⟩
      obtain ⟨⟨k, vs⟩, hmem, rfl⟩ := List.mem_map.mp hg
      dsimp only
      split
      · refine ⟨by simp, List.forall_mem_append.mpr ⟨(hgroups _ (mem_of_lookup hold)).2, ?_⟩⟩
        exact List.forall_mem_singleton.mpr (hv hfound)
      · exact hgroups _ hmem
    · intro hfaults
      simp at hfaults

theorem round (hl : l.Definite) (group : Bool) {condition key : Option Outcome}
    (hcondition : ∀ o ∈ condition, o.Definite) (hkey : ∀ o ∈ key, o.Definite)
    (ho : o.Definite) : (l.round group condition key o).Definite := by
  unfold LoopOutcome.round
  rcases hinclusion : inclusion key.isSome condition with ⟨verdict, found⟩
  dsimp only
  cases verdict with
  | undecided own => exact hl.undecided (inclusion_undecided hcondition hinclusion)
  | excluded => exact fun hfaults => hl (List.append_eq_nil_iff.mp hfaults).1
  | included =>
    cases key with
    | none =>
      intro hfaults
      simp only [List.append_eq_nil_iff] at hfaults
      obtain ⟨hknown, hitems, hgroups⟩ := hl hfaults.1.1
      refine ⟨hknown, List.forall_mem_append.mpr ⟨hitems, ?_⟩, hgroups⟩
      exact List.forall_mem_singleton.mpr (ho hfaults.2)
    | some k =>
      have hk := hkey k rfl
      dsimp only
      split
      · exact hl.undecided (.inr (List.cons_ne_nil _ _))
      split
      · rename_i hknown
        refine hl.undecided (.inl fun hfound => ?_)
        simp [(hk (List.append_eq_nil_iff.mp hfound).2).isKnown] at hknown
      split
      · exact hl.addEntry group _ fun hfound => ho (List.append_eq_nil_iff.mp hfound).2
      · exact hl.undecided (.inr (List.cons_ne_nil _ _))

theorem outcome (hl : l.Definite) (makesObject group : Bool) :
    (l.outcome makesObject group).Definite := by
  intro hfaults
  obtain ⟨hknown, hitems, hgroups⟩ := hl hfaults
  simp only [LoopOutcome.outcome, hknown, Bool.not_true, Bool.false_eq_true, if_false]
  split
  · exact .sequence (.tuple _) hitems
  split
  · refine Value.definite_objectOf fun e he => ?_
    obtain ⟨g, hg, rfl⟩ := List.mem_map.mp he
    exact .sequence (.tuple _) (hgroups g hg).2
  · refine Value.definite_objectOf fun e he => ?_
    obtain ⟨⟨k, vs⟩, hg, rfl⟩ := List.mem_map.mp he
    obtain ⟨hne, hvs⟩ := hgroups _ hg
    cases vs with
    | nil => exact absurd rfl hne
    | cons v vs => exact hvs v List.mem_cons_self

end LoopOutcome.Definite

/-- No round takes back a fault. -/
theorem faults_of_round {l : LoopOutcome} {group : Bool} {condition key : Option Outcome}
    (h : (l.round group condition key o).faults = []) : l.faults = [] := by
  unfold LoopOutcome.round LoopOutcome.undecided LoopOutcome.addEntry at h
  dsimp only at h
  split at h
  · exact (List.append_eq_nil_iff.mp (List.append_eq_nil_iff.mp h).1).1
  · exact (List.append_eq_nil_iff.mp h).1
  split at h
  · exact (List.append_eq_nil_iff.mp (List.append_eq_nil_iff.mp h).1).1
  split at h
  · exact (List.append_eq_nil_iff.mp (List.append_eq_nil_iff.mp h).1).1
  split at h
  · exact (List.append_eq_nil_iff.mp (List.append_eq_nil_iff.mp h).1).1
  split at h
  · split at h
    · exact (List.append_eq_nil_iff.mp h).1
    split at h
    · exact (List.append_eq_nil_iff.mp h).1
    · exact (List.append_eq_nil_iff.mp (List.append_eq_nil_iff.mp h).1).1
  · exact (List.append_eq_nil_iff.mp (List.append_eq_nil_iff.mp h).1).1

theorem ne_nil_of_conditionFaults {c : Option Outcome} (h : conditionFaults c = .error fs) :
    fs ≠ [] := by
  unfold conditionFaults at h
  split at h
  · cases h
  split at h
  · exact Except.error.inj h ▸ by simp
  split at h
  · exact Except.error.inj h ▸ by simp
  split at h
  · rename_i hfaults
    exact Except.error.inj h ▸ by simpa using hfaults
  · cases h

section loops

variable {makesObject group : Bool} {condition key : Value → Value → Option Outcome}
  {value : Value → Value → Outcome}

/-- The rounds of a loop, one after another. -/
theorem definite_rounds {entries : List (Value × Value)} : ∀ {l : LoopOutcome}, l.Definite →
    (l.faults = [] → ∀ e ∈ entries, (∀ o ∈ condition e.1 e.2, o.Definite) ∧
      (∀ o ∈ key e.1 e.2, o.Definite) ∧ (value e.1 e.2).Definite) →
    (entries.foldl (fun l (k, v) => l.round group (condition k v) (key k v) (value k v))
      l).Definite := by
  induction entries with
  | nil => exact fun hl _ => hl
  | cons e entries ih =>
    intro l hl h
    refine ih (fun hfaults => ?_) fun hfaults => ?_
    · obtain ⟨hcondition, hkey, hvalue⟩ := (List.forall_mem_cons.mp (h (faults_of_round hfaults))).1
      exact hl.round group hcondition hkey hvalue hfaults
    · exact (List.forall_mem_cons.mp (h (faults_of_round hfaults))).2

/-- A loop without faults goes through all its rounds. -/
theorem loopOutcome_cases (ho : o.Definite)
    (hcondition : ∀ k v, k.Definite → v.Definite → ∀ o ∈ condition k v, o.Definite)
    (hkey : ∀ k v, k.Definite → v.Definite → ∀ o ∈ key k v, o.Definite)
    (hvalue : ∀ k v, k.Definite → v.Definite → (value k v).Definite) :
    (loopOutcome o makesObject group condition key value).faults ≠ [] ∨
      ∃ l : LoopOutcome, l.Definite ∧
        loopOutcome o makesObject group condition key value = l.outcome makesObject group := by
  have hunknown {t : ValueType} (h : o.value = .unknown t) : o.faults ≠ [] := fun hfaults =>
    absurd (h ▸ ho hfaults) Value.Definite.not_unknown
  unfold loopOutcome
  split
  · exact .inl (by simp)
  rename_i hnull
  split
  · rename_i hdynamic
    refine .inl fun hfaults => ?_
    exact absurd (beq_iff_eq.mp hdynamic) ((ho hfaults).type_ne_dynamic (by simpa using hnull))
  split
  · exact .inl (by simp)
  · exact .inl (by simp)
  · exact .inl (by simp)
  · exact .inl (hunknown ‹_›)
  split
  · exact .inl (by simp)
  rename_i entries hentries
  split
  · rename_i faults hfaults
    exact .inl fun h => ne_nil_of_conditionFaults hfaults (List.append_eq_nil_iff.mp h).2
  · refine .inr ⟨_, definite_rounds (fun _ => ⟨rfl, by simp, by simp⟩) fun hfaults e he => ?_, rfl⟩
    obtain ⟨hk, hv⟩ := (ho hfaults).entries? hentries e he
    exact ⟨hcondition _ _ hk hv, hkey _ _ hk hv, hvalue _ _ hk hv⟩

theorem definite_loopOutcome (ho : o.Definite)
    (hcondition : ∀ k v, k.Definite → v.Definite → ∀ o ∈ condition k v, o.Definite)
    (hkey : ∀ k v, k.Definite → v.Definite → ∀ o ∈ key k v, o.Definite)
    (hvalue : ∀ k v, k.Definite → v.Definite → (value k v).Definite) :
    (loopOutcome o makesObject group condition key value).Definite := by
  rcases loopOutcome_cases ho hcondition hkey hvalue with h | ⟨l, hl, h⟩
  · exact fun hfaults => absurd hfaults h
  · exact h ▸ hl.outcome makesObject group

/-- A loop without keys makes a tuple. -/
theorem tuple_loopOutcome (ho : o.Definite)
    (hcondition : ∀ k v, k.Definite → v.Definite → ∀ o ∈ condition k v, o.Definite)
    (hkey : ∀ k v, k.Definite → v.Definite → ∀ o ∈ key k v, o.Definite)
    (hvalue : ∀ k v, k.Definite → v.Definite → (value k v).Definite)
    (hfaults : (loopOutcome o false group condition key value).faults = []) :
    ∃ items, (loopOutcome o false group condition key value).value = .tuple items := by
  rcases loopOutcome_cases ho hcondition hkey hvalue with h | ⟨l, hl, h⟩
  · exact absurd hfaults h
  · rw [h] at hfaults ⊢
    exact ⟨l.items, by simp [LoopOutcome.outcome, (hl hfaults).1]⟩

end loops

/-! Splats -/

theorem definite_splatOutcome (ho : o.Definite) {each : Value → Outcome}
    (heach : ∀ v, v.Definite → (each v).Definite) : (splatOutcome o each).Definite := by
  have hvalues {items : List Value} (hitems : ∀ w ∈ items, w.Definite)
      (hfaults : (!((items.map each).flatMap (·.faults)).isEmpty) ≠ true) :
      ∀ w ∈ (items.map each).map (·.value), w.Definite := by
    intro w hw
    obtain ⟨r, hr, rfl⟩ := List.mem_map.mp hw
    obtain ⟨u, hu, rfl⟩ := List.mem_map.mp hr
    have hnil : (items.map each).flatMap (·.faults) = [] := by simpa using hfaults
    exact heach u (hitems u hu) (List.flatMap_eq_nil_iff.mp hnil _ hr)
  unfold splatOutcome
  dsimp only
  split
  · rename_i hfaults
    exact Outcome.definite_of_ne (by simpa using hfaults)
  rename_i hfaults
  have hv : o.value.Definite := ho (by simpa using hfaults)
  have htuple {items : List Value} (hitems : ∀ w ∈ items, w.Definite) :
      Outcome.Definite (if !((items.map each).flatMap (·.faults)).isEmpty then
          ⟨.anything, (items.map each).flatMap (·.faults)⟩
        else ⟨.tuple ((items.map each).map (·.value)), []⟩) := by
    split
    · rename_i hfaults
      exact Outcome.definite_of_ne (by simpa using hfaults)
    · exact Outcome.definite_mk (.sequence (.tuple _) (hvalues hitems ‹_›))
  generalize o.value = v at hv
  cases v with
  | list t items | set t items =>
    have hitems : ∀ w ∈ items, w.Definite := hv.items (by constructor)
    dsimp only
    split
    · rename_i hfaults
      exact Outcome.definite_of_ne (by simpa using hfaults)
    · rename_i hfaults
      have hvalues := hvalues hitems hfaults
      rw [if_neg (by simp)]
      split
      · exact Outcome.definite_mk (.sequence (.list _ _) (by simp))
      · exact Outcome.definite_mk (.sequence (.list _ _) hvalues)
  | tuple items => exact htuple (hv.items (.tuple items))
  | unknown t => exact absurd hv Value.Definite.not_unknown
  | null t =>
    cases t with
    | list | set | tuple => exact definite_fault _
    | _ => exact Outcome.definite_mk (.sequence (.tuple _) (by simp))
  | _ => exact htuple (List.forall_mem_singleton.mpr hv)

end outcomes

end SolidityCanvas.Config
