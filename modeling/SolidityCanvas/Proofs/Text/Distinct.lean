/-
The distinct members of a list of texts.

`Text.sortedDistinct` keeps the members and drops repetitions
(`mem_sortedDistinct`), in ascending order (`pairwise_sortedDistinct`), so that only
the members matter (`sortedDistinct_congr`).
-/
import Mathlib.Data.List.Sort
import Mathlib.Data.String.Basic
import SolidityCanvas.Text.Split

namespace SolidityCanvas.Text

theorem mem_insertSorted {s t : String} {ts : List String} :
    s ∈ insertSorted t ts ↔ s = t ∨ s ∈ ts := by
  induction ts with
  | nil => simp [insertSorted]
  | cons u ts ih =>
    rw [insertSorted]
    split
    · exact List.mem_cons
    split
    · rename_i heq
      obtain rfl : t = u := by simpa using heq
      simp
    · rw [List.mem_cons, ih, List.mem_cons]
      exact or_left_comm

@[simp] theorem mem_sortedDistinct {s : String} {ss : List String} :
    s ∈ sortedDistinct ss ↔ s ∈ ss := by
  induction ss with
  | nil => rfl
  | cons t ss ih => rw [sortedDistinct, List.foldr_cons, mem_insertSorted, List.mem_cons, ← ih]; rfl

theorem pairwise_insertSorted {t : String} {ts : List String} (h : ts.Pairwise (· < ·)) :
    (insertSorted t ts).Pairwise (· < ·) := by
  induction ts with
  | nil => exact List.pairwise_singleton _ _
  | cons u ts ih =>
    obtain ⟨hu, hts⟩ := List.pairwise_cons.mp h
    rw [insertSorted]
    split
    · rename_i hlt
      refine List.pairwise_cons.mpr ⟨fun s hs => ?_, h⟩
      obtain rfl | hs := List.mem_cons.mp hs
      · exact hlt
      · exact lt_trans hlt (hu s hs)
    split
    · exact h
    · rename_i hlt hne
      refine List.pairwise_cons.mpr ⟨fun s hs => ?_, ih hts⟩
      obtain rfl | hs := mem_insertSorted.mp hs
      · exact lt_of_le_of_ne (not_lt.mp hlt) fun heq => hne (beq_iff_eq.mpr heq.symm)
      · exact hu s hs

theorem pairwise_sortedDistinct (ss : List String) : (sortedDistinct ss).Pairwise (· < ·) := by
  induction ss with
  | nil => exact List.Pairwise.nil
  | cons t ss ih => exact pairwise_insertSorted ih

/-- Only the members matter. -/
theorem sortedDistinct_congr {ss ts : List String} (h : ∀ s, s ∈ ss ↔ s ∈ ts) :
    sortedDistinct ss = sortedDistinct ts := by
  have hnodup : ∀ l : List String, (sortedDistinct l).Nodup :=
    fun l => (pairwise_sortedDistinct l).imp ne_of_lt
  have hperm : (sortedDistinct ss).Perm (sortedDistinct ts) :=
    (List.perm_ext_iff_of_nodup (hnodup ss) (hnodup ts)).mpr fun s => by simp [h s]
  exact hperm.eq_of_pairwise' (pairwise_sortedDistinct ss) (pairwise_sortedDistinct ts)

end SolidityCanvas.Text
