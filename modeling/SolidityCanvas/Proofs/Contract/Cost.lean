/-
What a contract costs.

The cost of a document is the sum of the costs of the templates of its entries, in
words of 64 bits (`Document.estimatedCost_ofRendered`).  A catalog that was built has
no cost below zero (`Catalog.cost_nonneg_of_build`), but nothing bounds their sum:

* `Compiler.estimate_of_emitted`: the cost is the sum as a word, and the sum itself
  exactly if a word has room for it; then it is neither below zero nor below the cost
  of an instance;
* `Compiler.vaults_cost_less_than_nothing`: the cost of two instances can be below
  zero.
-/
import Mathlib.Algebra.Order.BigOperators.Group.List
import Mathlib.Algebra.Order.Ring.Int
import SolidityCanvas.Proofs.Catalog.Coherent
import SolidityCanvas.Proofs.Compiler.Written
import SolidityCanvas.Proofs.Contract.Layout
import SolidityCanvas.Proofs.Contract.Selectors

namespace SolidityCanvas

namespace Component

variable {ks : List Component}

/-- What some components cost together. -/
def totalCost (ks : List Component) : ℤ := (ks.map (·.template.cost.toInt)).sum

theorem totalCost_nonneg (h : ∀ k ∈ ks, 0 ≤ k.template.cost.toInt) : 0 ≤ totalCost ks :=
  List.sum_nonneg (List.forall_mem_map.mpr h)

/-- None of them costs more than all of them. -/
theorem cost_le_totalCost (h : ∀ k ∈ ks, 0 ≤ k.template.cost.toInt) :
    ∀ k ∈ ks, k.template.cost.toInt ≤ totalCost ks :=
  fun _ hk => List.single_le_sum (List.forall_mem_map.mpr h) _ (List.mem_map_of_mem hk)

end Component

/-! ### Sums of words -/

namespace Document

/-- **The cost of a document is the sum of the costs of its entries**, as a word. -/
theorem estimatedCost_ofRendered (h : Header) (sizes : List Nat)
    (rendered : List (Entry × Rendered)) : (ofRendered h sizes rendered).estimatedCost =
      Int64.ofInt (Component.totalCost (rendered.map (·.1.component))) := by
  have hfold : ∀ (rest : List (Entry × Rendered)) (n : Int64),
      rest.foldl (fun n p => n + p.1.component.template.cost) n =
        n + Int64.ofInt (Component.totalCost (rest.map (·.1.component))) := by
    intro rest
    induction rest with
    | nil => exact fun n => (Int64.add_zero n).symm
    | cons p rest ih =>
      intro n
      have hcost : Component.totalCost ((p :: rest).map (·.1.component)) =
          p.1.component.template.cost.toInt + Component.totalCost (rest.map (·.1.component)) := rfl
      rw [List.foldl_cons, ih, hcost, Int64.ofInt_add, Int64.ofInt_toInt, Int64.add_assoc]
  exact (hfold rendered 0).trans (Int64.zero_add _)

end Document

/-- A number that is not below zero is a word exactly if it is less than half of their
number. -/
theorem toInt_ofInt_eq_iff {n : ℤ} (hn : 0 ≤ n) : (Int64.ofInt n).toInt = n ↔ n < 2 ^ 63 := by
  rw [Int64.toInt_ofInt, Int64.size, Int.bmod_def]
  omega

/-! ### Costs of templates -/

namespace Catalog

variable {files : List (String × Definitions)} {catalog : Catalog}

theorem cost_nonneg_of_build (hbuild : build files = .ok catalog) :
    ∀ t ∈ catalog.templates, 0 ≤ t.cost.toInt := by
  intro t ht
  have hmade := made_of_build hbuild
  rw [hmade.templates] at ht
  obtain ⟨i, hi, rfl⟩ := List.mem_map.mp ht
  obtain ⟨_, -, hfaults⟩ := hmade.faultless i hi
  exact Int64.le_iff_toInt_le.mp (templateFaults_eq_nil.mp hfaults).1

end Catalog

/-! ### Canvases that are written -/

namespace Compiler

variable {c : Compiler} {canvas : Canvas} {header : Header} {canceled : Bool} {r : CompileResult}
  {a : Arrangement} {d : Document}

/-- The cost of what is written is the sum of the costs of the entries, as a word. -/
theorem Writes.estimatedCost (h : c.Writes canvas header r a d) :
    d.estimatedCost = Int64.ofInt (Component.totalCost (a.entries.map (·.component))) := by
  obtain ⟨rendered, hrendered, rfl⟩ := Arrangement.emit_eq_ok.mp h.emit
  rw [Document.estimatedCost_ofRendered, ← map_fst_renderAll hrendered, List.map_map]
  rfl

/-- The components of what is written are those of the ids in its order. -/
theorem Writes.forall₂_order (h : c.Writes canvas header r a d) :
    List.Forall₂ (fun id k => canvas.componentAt? c.catalog id = some k) r.order
      (a.entries.map (·.component)) := by
  rw [h.order, Arrangement.order, List.forall₂_map_left_iff, List.forall₂_map_right_iff,
    List.forall₂_same]
  exact fun e he => Canvas.componentAt?_of_mem_entries h.arrange he

/-- **What a contract costs.**  A catalog that was built has a canvas written by a
compiler that does not remember it.  The order holds each instance of the canvas once,
and each has a component, whose template costs nothing or more.

The cost of the document is the sum of these costs as a word of 64 bits.  It is the sum
itself exactly if that is less than 2 ^ 63, and then it is neither below zero nor below
the cost of any instance. -/
theorem estimate_of_emitted {files : List (String × Definitions)}
    (hbuild : Catalog.build files = .ok c.catalog) (hnew : c.remembered? canvas header = none)
    (hr : (c.compile canvas header canceled).1 = .ok r) (hemitted : r.status = .emitted) :
    ∃ d ks, r.document = some d ∧ r.order.Perm (canvas.instances.map (·.id)) ∧
      List.Forall₂ (fun id k => canvas.componentAt? c.catalog id = some k) r.order ks ∧
      (∀ k ∈ ks, 0 ≤ k.template.cost.toInt) ∧
      d.estimatedCost = Int64.ofInt (Component.totalCost ks) ∧
      (d.estimatedCost.toInt = Component.totalCost ks ↔ Component.totalCost ks < 2 ^ 63) ∧
      (Component.totalCost ks < 2 ^ 63 → 0 ≤ d.estimatedCost.toInt ∧
        ∀ k ∈ ks, k.template.cost.toInt ≤ d.estimatedCost.toInt) := by
  obtain ⟨a, d, hwrites⟩ := written_of_compile hnew hr hemitted
  have hcosts : ∀ k ∈ a.entries.map (·.component), 0 ≤ k.template.cost.toInt := by
    intro k hk
    obtain ⟨e, he, rfl⟩ := List.mem_map.mp hk
    obtain ⟨i, -, hi⟩ := Canvas.componentAt?_eq_some.mp
      (Canvas.componentAt?_of_mem_entries hwrites.arrange he)
    exact Catalog.cost_nonneg_of_build hbuild _ (Canvas.template_mem_of_componentOf? hi)
  have hcost := hwrites.estimatedCost
  have hexact := toInt_ofInt_eq_iff (Component.totalCost_nonneg hcosts)
  refine ⟨d, a.entries.map (·.component), hwrites.document, ?_, hwrites.forall₂_order, hcosts,
    hcost, hcost ▸ hexact, fun hroom => ?_⟩
  · rw [hwrites.order]
    exact Canvas.perm_order_of_arrange hwrites.arrange hwrites.ids_nodup
  · rw [hcost, hexact.mpr hroom]
    exact ⟨Component.totalCost_nonneg hcosts, Component.cost_le_totalCost hcosts⟩

end Compiler

/-! ### Two vaults -/

/-- A template of some cost. -/
def Catalog.pricedFiles (cost : Int64) : List (String × Definitions) :=
  [("vault", {
    categories := [⟨"vault", "state", "", false, "", false, false⟩]
    templates := [{ sampleTemplate "vault" [] with cost }] })]

/-- The catalog of these definitions. -/
def Catalog.priced (cost : Int64) : Catalog := ((build (pricedFiles cost)).toOption).getD {}

theorem Catalog.build_pricedFiles : build (pricedFiles 2100) = .ok (priced 2100) ∧
    build (pricedFiles 9223372036854775807) = .ok (priced 9223372036854775807) := ⟨rfl, rfl⟩

/-- Two instances of the template. -/
def Canvas.vaults : Canvas where
  instances := [⟨"a", "vault", []⟩, ⟨"b", "vault", []⟩]

/-- Both cost what the template does. -/
theorem Canvas.cost_of_vaults {cost : Int64} {ids : List String} {ks : List Component}
    (hcost : ∀ t ∈ (Catalog.priced cost).templates, t.cost = cost)
    (h : List.Forall₂ (fun id k => vaults.componentAt? (.priced cost) id = some k) ids ks) :
    Component.totalCost ks = ids.length * cost.toInt := by
  induction h with
  | nil => simp [Component.totalCost]
  | cons hk _ ih =>
    obtain ⟨i, -, hi⟩ := componentAt?_eq_some.mp hk
    have htemplate := hcost _ (template_mem_of_componentOf? hi)
    simp only [Component.totalCost, List.map_cons, List.sum_cons, htemplate,
      List.length_cons] at ih ⊢
    rw [ih]
    push_cast
    ring

theorem Compiler.vaults_cost : ∃ r d,
    ((new (.priced 2100) 1).compile .vaults {} false).1 = .ok r ∧ r.status = .emitted ∧
      r.document = some d ∧ d.estimatedCost.toInt = 4200 := by
  obtain ⟨hbuild, -⟩ := Catalog.build_pricedFiles
  obtain ⟨r, hr, hemitted⟩ := exists_emitted_of_build .vaults hbuild (by decide)
    (by decide)
  obtain ⟨d, ks, hd, hperm, hks, -, -, hexact, -⟩ :=
    estimate_of_emitted (c := new (.priced 2100) 1) hbuild rfl hr hemitted
  have htotal := @Canvas.cost_of_vaults 2100 _ _ (by decide) hks
  rw [hperm.length_eq] at htotal
  refine ⟨r, d, hr, hemitted, hd, ?_⟩
  rw [hexact.mpr (htotal ▸ by decide), htotal]
  rfl

/-- **A contract can cost less than nothing**: no word holds what two instances of the
dearest template cost. -/
theorem Compiler.vaults_cost_less_than_nothing :
    Catalog.build (Catalog.pricedFiles 9223372036854775807) = .ok (.priced 9223372036854775807) ∧
      ∃ r d ks, ((new (.priced 9223372036854775807) 1).compile .vaults {} false).1 = .ok r ∧
        r.status = .emitted ∧ r.document = some d ∧ List.Forall₂
          (fun id k => Canvas.vaults.componentAt? (.priced 9223372036854775807) id = some k)
          r.order ks ∧
        Component.totalCost ks = 18446744073709551614 ∧ d.estimatedCost.toInt = -2 := by
  obtain ⟨-, hbuild⟩ := Catalog.build_pricedFiles
  obtain ⟨r, hr, hemitted⟩ := exists_emitted_of_build .vaults hbuild (by decide)
    (by decide)
  obtain ⟨a, d, hwrites⟩ := written_of_compile (c := new (.priced 9223372036854775807) 1)
    rfl hr hemitted
  have hks := hwrites.forall₂_order
  have htotal := @Canvas.cost_of_vaults 9223372036854775807 _ _
    (by decide) hks
  rw [hwrites.order, (Canvas.perm_order_of_arrange hwrites.arrange hwrites.ids_nodup).length_eq]
    at htotal
  refine ⟨hbuild, r, d, _, hr, hemitted, hwrites.document, hks, htotal, ?_⟩
  rw [hwrites.estimatedCost, htotal]
  decide

end SolidityCanvas
