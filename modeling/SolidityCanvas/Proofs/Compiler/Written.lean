/-
What is written for a canvas.

A result that is not remembered is that of a new compilation
(`compile_of_unremembered`), whatever else the compiler has done before.  If the
canvas is written, its ids are distinct, and document and order are those of its
arrangement (`written_of_compile`), which holds each instance once
(`Canvas.perm_order_of_arrange`).
-/
import SolidityCanvas.Proofs.Arrangement.Order
import SolidityCanvas.Proofs.Compiler.Memory
import SolidityCanvas.Proofs.Validation.Verdict

namespace SolidityCanvas

namespace Canvas

variable {canvas : Canvas} {catalog : Catalog} {a : Arrangement}

/-- An entry has the component of the first instance with its id. -/
theorem componentAt?_of_mem_entries (ha : canvas.arrange catalog = .ok (.ok a)) {e : Entry}
    (he : e ∈ a.entries) : canvas.componentAt? catalog e.id = some e.component := by
  obtain ⟨ks, fs, us, hks, -, -, -, -, hblocks⟩ := blocks_of_arrange ha
  obtain ⟨s, hs, he⟩ := List.mem_flatMap.mp he
  obtain ⟨k, hk, rfl⟩ := List.mem_map.mp (((hblocks s hs).mem_iff e).mp he).1
  exact (mem_components hks).mp hk

/-- An arrangement holds every instance once, if the ids are distinct. -/
theorem perm_order_of_arrange (ha : canvas.arrange catalog = .ok (.ok a))
    (hnd : (canvas.instances.map (·.id)).Nodup) : a.order.Perm (canvas.instances.map (·.id)) := by
  obtain ⟨ks, fs, us, hks, -, -, -, hzones, hblocks⟩ := blocks_of_arrange ha
  refine (List.perm_ext_iff_of_nodup (nodup_order_of_arrange ha) hnd).mpr fun id => ?_
  rw [mem_order_iff_of_blocks hks hzones hblocks, List.mem_map]

end Canvas

namespace Compiler

variable {c : Compiler} {canvas : Canvas} {h : Header} {canceled : Bool} {r : CompileResult}

/-- What is remembered is not compiled again. -/
theorem compile_of_remembered (hknown : c.remembered? canvas h = some r) :
    (c.compile canvas h canceled).1 = .ok r := by
  have hget : (c.results.get (resultKey canvas h.withDefaults)).1 = some r :=
    (Cache.get_fst _ _).trans hknown
  rw [compile]
  split
  · rename_i r' results heq
    rw [heq] at hget
    rw [Option.some.inj hget]
  · rename_i results heq
    rw [heq] at hget
    cases hget

/-- What is not remembered is compiled. -/
theorem compile_of_unremembered (hnew : c.remembered? canvas h = none) :
    (c.compile canvas h canceled).1 = (c.run canvas h.withDefaults canceled).1 := by
  have hget : c.results.get (resultKey canvas h.withDefaults) = (none, c.results) :=
    Cache.get_of_none hnew
  rw [compile]
  simp only [hget]
  split <;> rename_i heq <;> rw [heq]

/-- A compilation that is canceled has no result. -/
theorem not_canceled_of_run (hr : (c.run canvas h canceled).1 = .ok r) : canceled = false := by
  cases canceled with
  | false => rfl
  | true =>
    rw [run] at hr
    split at hr
    · cases hr
    · cases hr

/-- The document is written for the arrangement of a canvas. -/
structure Writes (c : Compiler) (canvas : Canvas) (h : Header) (r : CompileResult)
    (a : Arrangement) (d : Document) : Prop where
  ids_nodup : (canvas.instances.map (·.id)).Nodup
  arrange : canvas.arrange c.catalog = .ok (.ok a)
  emit : (a.emit h c.renders).1 = .ok d
  document : r.document = some d
  order : r.order = a.order

/-- What a canvas is written for. -/
theorem written_of_run (hr : (c.run canvas h canceled).1 = .ok r) (hemitted : r.status = .emitted) :
    ∃ a d, c.Writes canvas h r a d := by
  have hrejected : Status.rejected ≠ Status.emitted := by decide
  obtain rfl := not_canceled_of_run hr
  obtain ⟨findings, hvalidate, ⟨_, -, rfl⟩ | ⟨a, ha, ⟨-, rfl⟩ | ⟨hclean, d, x, hd, -, rfl⟩⟩⟩ :=
    run_eq_ok hr
  · exact absurd hemitted hrejected
  · exact absurd hemitted hrejected
  · -- Instances with one id would have been an error.
    obtain ⟨ks, bound, hks, hparts⟩ := Canvas.validate_eq_ok hvalidate
    have hnd := ((Canvas.hasErrors_components hks).mp (hparts.mp hclean).1).1
    exact ⟨a, d, hnd, ha, hd, rfl, rfl⟩

theorem written_of_compile (hnew : c.remembered? canvas h = none)
    (hr : (c.compile canvas h canceled).1 = .ok r) (hemitted : r.status = .emitted) :
    ∃ a d, c.Writes canvas h.withDefaults r a d :=
  written_of_run (compile_of_unremembered hnew ▸ hr) hemitted

end Compiler

end SolidityCanvas
