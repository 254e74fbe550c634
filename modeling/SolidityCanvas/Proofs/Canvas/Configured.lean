/-
Canvases that are read from configurations.

The properties of a component are a constant expression, so that their values
are known and in normal form.

* `definite_ofConfig`: this, for all components of a file;
* `Loadable.normal`: a canvas that is read from a file of either format is normal.
-/
import SolidityCanvas.Canvas.Load
import SolidityCanvas.Proofs.Canvas.Reading
import SolidityCanvas.Proofs.Config.Proper

namespace SolidityCanvas

open Config

/-- Names ascend and values are definite. -/
structure Bag.Definite (b : Bag) : Prop where
  ascending : Value.Ascending b
  values : ∀ e ∈ b, e.2.Definite

theorem Bag.Definite.normal {b : Bag} (h : b.Definite) : b.Normal :=
  ⟨h.ascending, fun e he => (h.values e he).normal⟩

namespace Canvas

theorem definite_propertiesOf {e : Expr} (he : e.Proper false) {b : Bag}
    (h : propertiesOf e = .ok b) : b.Definite := by
  have heval : (e.eval {}).Definite := he.definite_eval ⟨rfl, by simp, by simp⟩
  unfold propertiesOf at h
  dsimp only at h
  split at h
  · cases h
  rename_i hfaults
  have hvalue := heval (by simpa using hfaults)
  split at h
  · obtain rfl := Except.ok.inj h
    exact ⟨List.Pairwise.nil, by simp⟩
  · rename_i entries hentries
    obtain rfl := Except.ok.inj h
    obtain ⟨hascending, hvalues⟩ := (hentries ▸ hvalue).entries (.object _)
    exact ⟨hascending, fun e he => (hvalues e he).2⟩
  · rename_i t entries hentries
    obtain rfl := Except.ok.inj h
    obtain ⟨hascending, hvalues⟩ := (hentries ▸ hvalue).entries (.map t _)
    exact ⟨hascending, fun e he => (hvalues e he).2⟩
  · cases h

theorem proper_expr {b : Body} (h : Parser.ProperAttributes b.attributes) (name : String) :
    (b.expr name).Proper false := by
  unfold Body.expr
  split
  · rename_i a ha
    exact h a (List.mem_of_find?_eq_some ha)
  · exact Expr.proper_null

theorem gives_componentOf {k : Config.Block} (h : Parser.ProperAttributes k.attributes) :
    Decode.Gives (componentOf k) fun c => c.2.2.Proper false :=
  Decode.gives_bind fun _ => Decode.gives_bind fun _ => Decode.gives_pure (proper_expr h _)

theorem gives_blocksOf {b : Body} (h : ∀ k ∈ b.blocks, Parser.ProperAttributes k.attributes) :
    Decode.Gives (blocksOf b) fun r => ∀ c ∈ r.1, c.2.2.Proper false := by
  refine Decode.gives_bind fun _ => Decode.Gives.bind (Decode.gives_mapM fun k hk => ?_)
    fun _ hcomponents => Decode.gives_bind fun _ => Decode.gives_pure hcomponents
  exact gives_componentOf (h k (List.mem_filter.mp hk).1)

/-- **The properties of a component are known and in normal form.** -/
theorem definite_ofConfig {file text : String} {c : Canvas} (h : ofConfig file text = .ok c) :
    (∀ i ∈ c.instances, i.properties.Definite) ∧ c.version = 0 ∧ c.timestamp = none := by
  unfold ofConfig at h
  split at h
  · cases h
  rename_i body hbody
  obtain ⟨⟨components, connections⟩, hblocks, h⟩ := except_bind_eq_ok.mp h
  obtain ⟨instances, hinstances, h⟩ := except_bind_eq_ok.mp h
  obtain rfl := Except.ok.inj h
  refine ⟨fun i hi => ?_, rfl, rfl⟩
  have hproper := (gives_blocksOf (Body.proper_parse? hbody)).of_result (mapError_eq_ok.mp hblocks)
  obtain ⟨⟨id, template, e⟩, hmem, hi⟩ := exists_mem_of_mapM_ok hinstances i hi
  obtain ⟨properties, hproperties, hi⟩ := except_bind_eq_ok.mp hi
  obtain rfl := Except.ok.inj hi
  exact definite_propertiesOf (hproper _ hmem) (mapError_eq_ok.mp hproperties)

/-- The canvas is read from a document or from a configuration. -/
inductive Loadable (c : Canvas) : Prop
  | document {text : String} (h : ofDocument text = .ok c)
  | config {file text : String} (h : ofConfig file text = .ok c)

/-- **A canvas that is read from a file of either format is normal.** -/
theorem Loadable.normal {c : Canvas} (h : c.Loadable) : c.Normal := by
  cases h with
  | document h => exact (loaded_of_parse (mapError_eq_ok.mp h)).normal
  | config h =>
    obtain ⟨hproperties, -, htimestamp⟩ := definite_ofConfig h
    exact ⟨fun i hi => (hproperties i hi).normal, by simp [htimestamp]⟩

/-- All its values are known. -/
theorem Loadable.isWhollyKnown {c : Canvas} (h : c.Loadable) :
    ∀ i ∈ c.instances, ∀ e ∈ i.properties, e.2.isWhollyKnown = true := by
  cases h with
  | document h =>
    exact fun i hi e he =>
      ((loaded_of_parse (mapError_eq_ok.mp h)).described i hi e he).isWhollyKnown
  | config h => exact fun i hi e he => (((definite_ofConfig h).1 i hi).values e he).isWhollyKnown

end Canvas

end SolidityCanvas
