/-
Catalogs that show no ids.

An id can get into a contract in three ways: a template reads the variable `id`, a
link shows the id of a component without a name, and entries that differ in their ids
only are remembered under different keys.  A catalog that hides ids closes the first
two (`Catalog.hidesIds`), and all values of its templates are told by their texts, so
that keys say what is rendered.

* `Template.render_of_isAnonymous`, `Template.declaredNames_of_isAnonymous`: templates
  give the same for all ids;
* `Kind.plain_of_isWorded`: values without numbers are plain.
-/
import SolidityCanvas.Proofs.Catalog.Regular
import SolidityCanvas.Proofs.Catalog.Relinked

namespace SolidityCanvas

open Config

/-! ### Kinds without numbers -/

namespace Config.Kind

/-- Whether values of the kind are texts, truth values or lists of texts. -/
def isWorded : Kind → Bool
  | text | flag | names => true
  | _ => false

/-- **Such values are plain**, and hold no numbers. -/
theorem plain_of_isWorded {k : Kind} (hk : k.isWorded = true) {v : Value}
    (hv : k.admits v = true) : v.Plain ∅ (some .string) := by
  have htext : ∀ {v : Value}, isText v = true → v.Plain ∅ (some .string) := by
    intro v hv
    cases v <;> simp only [isText, Bool.false_eq_true] at hv
    exact .string _
  cases k <;> simp only [isWorded, Bool.false_eq_true] at hk
  case text => exact htext hv
  case flag =>
    cases v <;> simp only [admits, Bool.false_eq_true] at hv
    exact .bool _
  case names =>
    obtain ⟨ss, rfl⟩ := admits_names.mp hv
    refine .list rfl rfl fun v hv => ?_
    obtain ⟨s, _, rfl⟩ := List.mem_map.mp hv
    exact .string s

end Config.Kind

theorem plain_of_fitsKind {vars : Kinds} {l : List (String × Value)}
    (h : List.Forall₂ FitsKind vars l) (hvars : ∀ k ∈ vars, k.2.isWorded = true) :
    ∀ d ∈ l, d.2.Plain ∅ (some .string) := by
  induction h with
  | nil => exact fun d hd => absurd hd List.not_mem_nil
  | cons hkd _ ih =>
    obtain ⟨hk, hvars⟩ := List.forall_mem_cons.mp hvars
    exact List.forall_mem_cons.mpr ⟨Kind.plain_of_isWorded hk hkd.2, ih hvars⟩

/-! ### Templates -/

namespace Template

/-- Whether no expression of the template reads the id. -/
def isAnonymous (t : Template) : Bool :=
  [t.emit, t.imports, t.inherits, t.declares].all fun e => e.references.all (·.root != "id")

/-- Whether the variables of the template hold no numbers. -/
def isWorded (t : Template) : Bool := t.kinds.all (·.2.isWorded)

variable {t : Template} {b b' : Bag}

/-- An expression that does not read the id gives the same for all ids. -/
theorem eval_of_isAnonymous (h : t.isAnonymous = true) {e : Expr}
    (he : e ∈ [t.emit, t.imports, t.inherits, t.declares])
    (hb : ∀ n ≠ "id", b.lookup n = b'.lookup n) :
    e.eval (templateScope b) = e.eval (templateScope b') := by
  have hreads := List.all_eq_true.mp (List.all_eq_true.mp h e he)
  refine Expr.eval_congr e (fun r hr => ?_) (fun _ hn => absurd hn List.not_mem_nil) ⟨rfl, rfl⟩
  exact agreeOn_templateScope (hb r.root (bne_iff_ne.mp (hreads r hr)))

/-- **The id changes nothing in what is rendered.** -/
theorem render_of_isAnonymous (h : t.isAnonymous = true)
    (hb : ∀ n ≠ "id", b.lookup n = b'.lookup n) : t.render b = t.render b' :=
  render_congr rfl (eval_of_isAnonymous h (by simp) hb) (eval_of_isAnonymous h (by simp) hb)
    (eval_of_isAnonymous h (by simp) hb)

/-- **Nor does it change the declared names.** -/
theorem declaredNames_of_isAnonymous (h : t.isAnonymous = true) (id id' : String)
    (properties : Bag) : t.declaredNames id properties = t.declaredNames id' properties := by
  have hlookup : ∀ n ≠ "id", (t.declaringBindings id properties).lookup n =
      (t.declaringBindings id' properties).lookup n := by
    intro n hn
    refine (lookup_ofList_links _ _ (fun _ => .list .string []) _ n).trans ?_
    refine Eq.trans ?_ (lookup_ofList_links _ _ (fun _ => .list .string []) _ n).symm
    rw [if_neg hn, if_neg hn]
  have heval := eval_of_isAnonymous (e := t.declares) h (by simp) hlookup
  simp only [declaredNames, heval]

end Template

/-! ### Catalogs -/

/-- The category whose templates give their names to the link: that of the earlier
end. -/
def Rule.provider (r : Rule) : String := if r.order == .reverse then r.target else r.source

namespace Catalog

/-- Whether components have names where a link shows them. -/
def namesLinks (c : Catalog) : Bool :=
  c.rules.all fun r => r.link.isEmpty || c.templates.all fun t =>
    t.category.name != r.provider || t.category.nameProperty.isSome

/-- Whether the ids of instances are shown nowhere. -/
def hidesIds (c : Catalog) : Bool :=
  c.templates.all (fun t => t.isAnonymous && t.isWorded) && c.namesLinks

variable {c : Catalog}

theorem isAnonymous_of_hidesIds (h : c.hidesIds = true) {t : Template} (ht : t ∈ c.templates) :
    t.isAnonymous = true ∧ t.isWorded = true := by
  rw [hidesIds, Bool.and_eq_true] at h
  exact Bool.and_eq_true_iff.mp (List.all_eq_true.mp h.1 t ht)

theorem isSome_nameProperty_of_hidesIds (h : c.hidesIds = true) {r : Rule} (hr : r ∈ c.rules)
    (hlink : r.link ≠ "") {t : Template} (ht : t ∈ c.templates)
    (hcategory : t.category.name = r.provider) : t.category.nameProperty.isSome = true := by
  rw [hidesIds, Bool.and_eq_true] at h
  have hrule := List.all_eq_true.mp h.2 r hr
  rw [Bool.or_eq_true, List.all_eq_true] at hrule
  have htemplate := hrule.resolve_left (by simpa using hlink) t ht
  rw [Bool.or_eq_true] at htemplate
  exact htemplate.resolve_left (by simp [hcategory])

end Catalog

end SolidityCanvas
