/-
The functions of templates.

When a catalog is built, the functions that the expressions of a template call
are looked for in the library.  The walk that finds them does not go everywhere
(`Expr.HidesCall`), so that a template may be accepted although it calls a
function that does not exist (`Catalog.missing_function_is_accepted`).

* `Expr.resolves_function`: an expression that calls only functions that exist
  has no fault about a function;
* `Template.resolved_render`, `Template.resolved_declaredNames`: an instance fails
  only for faults of the expressions of its template;
* `Catalog.called_functions_exist`: how far the check at building goes.
-/
import SolidityCanvas.Proofs.Catalog.Lines
import SolidityCanvas.Proofs.Catalog.Scope

namespace SolidityCanvas

open Config

/-- The expressions of a template. -/
def Template.expressions (t : Template) : List Expr := [t.emit, t.imports, t.inherits, t.declares]

/-! ### What is evaluated -/

/-- **Functions of the library are found** in the expressions of templates. -/
theorem Config.Expr.resolves_function {e : Expr} (h : ∀ n, e.Calls n → n ∈ libraryNames) (b : Bag) :
    (e.eval (templateScope b)).Resolves .function := by
  have hvariable : ∀ n, (templateScope b).Finds .function n := fun n hw => by cases hw
  refine e.resolves_eval (fun r _ => hvariable r.root) (fun n (_ : n ∈ []) => hvariable n) ?_
  intro n hn _
  obtain ⟨f, hf, hname⟩ := List.mem_map.mp (h n hn)
  exact ⟨library, rfl, f, hf, hname⟩

/-- A value that is no list of texts is no fault of evaluation. -/
theorem textItems_ne_faults (vs : List Value) (fs : List EvalFault) :
    textItems vs ≠ .error (.faults fs) := by
  induction vs with
  | nil => exact fun h => by cases h
  | cons v vs ih =>
    rw [textItems]
    split
    · exact fun h => by cases h
    · intro h
      obtain h | ⟨rest, -, h⟩ := except_bind_eq_error.mp h
      · exact ih h
      · split at h <;> cases h

theorem textList_ne_faults (v : Value) (fs : List EvalFault) :
    textList v ≠ .error (.faults fs) := by
  rw [textList.eq_def]
  split
  · exact fun h => by cases h
  · split
    · exact textItems_ne_faults _ fs
    · exact fun h => by cases h

theorem resolved_evalTexts {w : Lookup} {e : Expr} {s : Scope} (h : (e.eval s).Resolves w)
    {fs : List EvalFault} (hfs : evalTexts e s = .error (.faults fs)) : Resolved w fs := by
  rw [evalTexts] at hfs
  split at hfs
  · exact absurd hfs (textList_ne_faults _ fs)
  · obtain rfl := TextListFault.faults.inj (Except.error.inj hfs)
    exact h

namespace Template

variable {t : Template} {w : Lookup} {err : RenderError}

theorem resolved_renderBody {s : Scope} (h : (t.emit.eval s).Resolves w)
    (herr : t.renderBody s = .error err) : Resolved w err.evalFaults := by
  rw [renderBody] at herr
  split at herr
  · obtain rfl := Except.error.inj herr
    exact h
  · split at herr
    · obtain rfl := Except.error.inj herr
      exact resolved_nil
    · cases herr
    · cases herr

/-- **Rendering fails for the faults of its expressions.** -/
theorem resolved_render {b : Bag} (h : ∀ e ∈ t.expressions, (e.eval (templateScope b)).Resolves w)
    (herr : t.render b = .error err) : Resolved w err.evalFaults := by
  have hexpr : t.emit ∈ t.expressions ∧ t.imports ∈ t.expressions ∧ t.inherits ∈ t.expressions := by
    simp [expressions]
  rw [render] at herr
  obtain herr | ⟨body, -, herr⟩ := except_bind_eq_error.mp herr
  · exact resolved_renderBody (h _ hexpr.1) herr
  obtain herr | ⟨imports, -, herr⟩ := except_bind_eq_error.mp herr
  · obtain ⟨f, hf, rfl⟩ := mapError_eq_error.mp herr
    cases f with
    | faults fs => exact resolved_evalTexts (h _ hexpr.2.1) hf
    | _ => exact resolved_nil
  obtain herr | ⟨inherits, -, herr⟩ := except_bind_eq_error.mp herr
  · obtain ⟨f, hf, rfl⟩ := mapError_eq_error.mp herr
    cases f with
    | faults fs => exact resolved_evalTexts (h _ hexpr.2.2) hf
    | _ => exact resolved_nil
  · cases herr

theorem resolved_nameLists {es : List (String × Value)} (herr : t.nameLists es = .error err) :
    Resolved w err.evalFaults := by
  induction es with
  | nil => cases herr
  | cons e es ih =>
    obtain ⟨space, v⟩ := e
    rw [nameLists] at herr
    obtain herr | ⟨names, -, herr⟩ := except_bind_eq_error.mp herr
    · obtain ⟨f, hf, rfl⟩ := mapError_eq_error.mp herr
      cases f with
      | faults fs => exact absurd hf (textList_ne_faults v fs)
      | _ => exact resolved_nil
    obtain herr | ⟨rest, -, herr⟩ := except_bind_eq_error.mp herr
    · exact ih herr
    · cases herr

/-- **Declared names fail for the faults of their expression.** -/
theorem resolved_declaredNames {id : String} {properties : Bag}
    (h : (t.declares.eval (templateScope (t.declaringBindings id properties))).Resolves w)
    (herr : t.declaredNames id properties = .error err) : Resolved w err.evalFaults := by
  have hlists {es : List (String × Value)} (herr : (t.nameLists es).map some = .error err) :
      Resolved w err.evalFaults := by
    cases hes : t.nameLists es with
    | error e =>
      rw [hes] at herr
      obtain rfl : e = err := Except.error.inj herr
      exact resolved_nameLists hes
    | ok lists =>
      rw [hes] at herr
      cases herr
  rw [declaredNames] at herr
  split at herr
  · obtain rfl := Except.error.inj herr
    exact h
  · split at herr
    · cases herr
    · exact hlists herr
    · exact hlists herr
    · obtain rfl := Except.error.inj herr
      exact resolved_nil

end Template

/-! ### What was checked -/

namespace Catalog

variable {c : Catalog} {files : List (String × Definitions)} {file : String}
  {d : TemplateDefinition} {t : Template}

/-- A function that the walk names exists. -/
theorem CheckedAs.mem_libraryNames (h : CheckedAs files c t file d) {n : String}
    (hn : n ∈ functionNames t.expressions) : n ∈ libraryNames := by
  have hunknown := (List.append_eq_nil_iff.mp h.expressions).2
  rw [List.map_eq_nil_iff, List.filter_eq_nil_iff] at hunknown
  have hexpressions : t.expressions = [d.emit, d.imports, d.inherits, d.declares] := by
    rw [h.eq]
    rfl
  simpa using hunknown n (hexpressions ▸ hn)

/-- **How far the check of functions goes.**  The summary of some expressions
names only functions that are called, and all of them if and only if those that
are called in the keys of objects and in values that are stepped into are called
elsewhere too.  A template of a catalog that was built calls functions that
exist, but for those; and if they exist as well, then whatever is bound, neither
rendering nor the declared names fail for want of a function. -/
theorem called_functions_exist (hbuild : build files = .ok c) :
    (∀ (es : List Expr) (n : String), n ∈ functionNames es → ∃ e ∈ es, e.Calls n) ∧
    (∀ es : List Expr, (∀ n, n ∈ functionNames es ↔ ∃ e ∈ es, e.Calls n) ↔
      ∀ e ∈ es, ∀ n, e.HidesCall n → n ∈ functionNames es) ∧
    ∀ t ∈ c.templates,
      (∀ e ∈ t.expressions, ∀ n, e.Calls n → n ∈ libraryNames ∨ e.HidesCall n) ∧
      ((∀ e ∈ t.expressions, ∀ n, e.HidesCall n → n ∈ libraryNames) →
        (∀ b err, t.render b = .error err → ∀ f ∈ err.evalFaults, f.isAbout .function = false) ∧
        ∀ id b err, t.declaredNames id b = .error err →
          ∀ f ∈ err.evalFaults, f.isAbout .function = false) := by
  refine ⟨fun es n hn => ?_, fun es => functionNames_exact_iff, fun t ht => ?_⟩
  · obtain ⟨e, he, hn⟩ := mem_functionNames.mp hn
    exact ⟨e, he, Expr.calls_of_mem_calledFunctions hn⟩
  obtain ⟨file, d, hd⟩ := (made_of_build hbuild).exists_checkedAs ht
  have hknown : ∀ e ∈ t.expressions, ∀ n, e.Calls n → n ∈ libraryNames ∨ e.HidesCall n := by
    intro e he n hn
    obtain hn | hn := Expr.calls_iff.mp hn
    · exact .inl (hd.mem_libraryNames (mem_functionNames.mpr ⟨e, he, hn⟩))
    · exact .inr hn
  refine ⟨hknown, fun hhidden => ?_⟩
  have heval : ∀ e ∈ t.expressions, ∀ b, (e.eval (templateScope b)).Resolves .function :=
    fun e he => Expr.resolves_function fun n hn => (hknown e he n hn).elim id (hhidden e he n)
  exact ⟨fun b err => Template.resolved_render fun e he => heval e he b,
    fun id b err => Template.resolved_declaredNames (heval _ (by simp [Template.expressions]) _)⟩

end Catalog

/-! ### A function in a key -/

/-- An object under a key that is computed. -/
def Config.Expr.keyedByLower : Expr :=
  object [(call "lower" [literal (.string "STATE")] false, tuple [reference "id" []])]

/-- A template that declares its id under the key. -/
def Catalog.keyFiles : List (String × Definitions) :=
  [("key", {
    categories := [⟨"mark", "state", "", false, "", false, false⟩]
    templates := [{ sampleTemplate "mark" [] with declares := .keyedByLower }] })]

theorem Catalog.key_functions_exist : ∃ c t, build keyFiles = .ok c ∧ t ∈ c.templates ∧
    functionNames t.expressions = [] ∧ (∃ e ∈ t.expressions, e.Calls "lower") ∧
    ∀ id b err, t.declaredNames id b = .error err →
      ∀ f ∈ err.evalFaults, f.isAbout .function = false := by
  obtain ⟨c, t, hbuild, ht, hexpressions⟩ : ∃ c t, build keyFiles = .ok c ∧ t ∈ c.templates ∧
      t.expressions = [.reference "id" [], .null, .null, .keyedByLower] :=
    ⟨_, _, rfl, List.mem_singleton_self _, rfl⟩
  -- The only call is that in the key.
  have hhidden : ∀ e ∈ t.expressions, ∀ n, e.HidesCall n → n ∈ libraryNames := by
    intro e he n hn
    have hcalls := Expr.calls_iff.mpr (.inr hn)
    simp only [hexpressions, List.mem_cons, List.not_mem_nil, or_false] at he
    obtain rfl | rfl | rfl | rfl := he
    · exact absurd hcalls (Expr.not_calls_of_leaf rfl rfl)
    · exact absurd hcalls (Expr.not_calls_of_leaf rfl rfl)
    · exact absurd hcalls (Expr.not_calls_of_leaf rfl rfl)
    · obtain ⟨_, _, h⟩ | ⟨k, hk, hcalls⟩ := hcalls.cases
      · cases h
      simp only [Expr.keyedByLower, Expr.children, List.map_cons, List.map_nil, List.mem_append,
        List.mem_singleton] at hk
      obtain rfl | rfl := hk
      · obtain ⟨_, _, h⟩ | ⟨k, hk, hcalls⟩ := hcalls.cases
        · obtain ⟨rfl, _, _⟩ := Expr.call.inj h
          decide
        · obtain rfl := List.mem_singleton.mp hk
          exact absurd hcalls (Expr.not_calls_of_leaf rfl rfl)
      · obtain ⟨_, _, h⟩ | ⟨k, hk, hcalls⟩ := hcalls.cases
        · cases h
        · obtain rfl := List.mem_singleton.mp hk
          exact absurd hcalls (Expr.not_calls_of_leaf rfl rfl)
  refine ⟨c, t, hbuild, ht, ?_, ?_, (((called_functions_exist hbuild).2.2 t ht).2 hhidden).2⟩
  · rw [hexpressions]
    rfl
  · rw [hexpressions]
    refine ⟨.keyedByLower, by simp, ?_⟩
    exact Expr.calls_of_mem_children (List.mem_cons_self ..) (Expr.calls_call _ _ _)

/-! ### A function that does not exist -/

/-- A file with a template that calls a function where the walk does not go. -/
def Catalog.missingLines : List (String × List String) := [("mark.hcl", [
  "category \"mark\" \x7b",
  "  section = \"state\"",
  "\x7d",
  "template \"mark\" \x7b",
  "  category = \"mark\"",
  "  emit = missing().text",
  "  declares = \x7b (missing()) = [] \x7d",
  "\x7d"])]

/-- Whether an expression steps into a call of the missing function. -/
def Config.Expr.stepsIntoMissing : Expr → Bool
  | relative (call "missing" [] false) [.attribute _] => true
  | _ => false

/-- Whether an expression is an object under a call of the missing function. -/
def Config.Expr.keyedByMissing : Expr → Bool
  | object [(parens (call "missing" [] false), tuple [])] => true
  | _ => false

theorem Catalog.missing_function_is_accepted : ∃ c t,
    ofFiles (missingLines.map fun f => (f.1, textOfLines f.2)) = .ok c ∧ t ∈ c.templates ∧
    functionNames t.expressions = [] ∧ t.emit.Calls "missing" ∧ t.declares.Calls "missing" ∧
    "missing" ∉ libraryNames ∧
    (∀ b, t.render b = .error (.emitFaults "mark" [.unknownFunction])) ∧
    ∀ id b, t.declaredNames id b = .error (.declaresFaults "mark" [.unknownFunction]) := by
  obtain ⟨c, hc, hcheck⟩ := exists_ofFiles missingLines (fun c => c.templates.any fun t =>
      t.id == "mark" && t.emit.stepsIntoMissing && t.declares.keyedByMissing &&
        functionNames t.expressions == []) (by decide) (by decide +kernel)
  obtain ⟨t, ht, hcheck⟩ := List.any_eq_true.mp hcheck
  simp only [Bool.and_eq_true, beq_iff_eq] at hcheck
  obtain ⟨⟨⟨hid, hemit⟩, hdeclares⟩, hnames⟩ := hcheck
  obtain ⟨name, hemit⟩ : ∃ name, t.emit = .relative (.call "missing" [] false) [.attribute name] := by
    unfold Expr.stepsIntoMissing at hemit
    split at hemit
    · exact ⟨_, ‹_›⟩
    · cases hemit
  have hdeclares : t.declares = .object [(.parens (.call "missing" [] false), .tuple [])] := by
    unfold Expr.keyedByMissing at hdeclares
    split at hdeclares
    · assumption
    · cases hdeclares
  have hmissing : ∀ b, (Expr.call "missing" [] false).eval (templateScope b) =
      .fault .unknownFunction := by
    intro b
    rfl
  refine ⟨c, t, hc, ht, hnames, ?_, ?_, by decide, fun b => ?_, fun id b => ?_⟩
  · rw [hemit]
    exact Expr.calls_of_mem_children (List.mem_singleton_self _) (Expr.calls_call _ _ _)
  · rw [hdeclares]
    refine Expr.calls_of_mem_children (List.mem_cons_self ..) ?_
    exact Expr.calls_of_mem_children (List.mem_singleton_self _) (Expr.calls_call _ _ _)
  · rw [Template.render, Template.renderBody, hemit, hid, Expr.eval, hmissing]
    rfl
  · rw [Template.declaredNames, hdeclares, hid, Expr.eval, Expr.evalItems, Expr.eval, hmissing]
    rfl

end SolidityCanvas
