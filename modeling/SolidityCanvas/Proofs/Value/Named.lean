/-
Named values in the order of their names.

* `ascending_sortNamed`: sorted names ascend, so that each occurs once;
* `sortNamed_eq_of_perm`: sorting finds the one row of names that ascends, in
  whatever order its members come;
* `lookup_sortNamed`: of several values with one name the last counts;
* `sortNamed_map`: sorting does not look at the values.
-/
import Mathlib.Data.List.Induction
import Mathlib.Data.List.Nodup
import Mathlib.Data.List.Perm.Basic
import Mathlib.Data.String.Basic
import SolidityCanvas.Value.Basic

namespace SolidityCanvas.Value

variable {α : Type} {l m : List (String × α)} {name : String} {a : α}

/-- Names ascend, so that none occurs twice. -/
def Ascending (l : List (String × α)) : Prop := (l.map (·.1)).Pairwise (· < ·)

theorem ascending_cons {e : String × α} :
    Ascending (e :: l) ↔ (∀ n ∈ l.map (·.1), e.1 < n) ∧ Ascending l := List.pairwise_cons

theorem Ascending.nodup (h : Ascending l) : (l.map (·.1)).Nodup := h.imp ne_of_lt

theorem name_of_mem_insertNamed {n : String} (h : n ∈ (insertNamed name a l).map (·.1)) :
    n = name ∨ n ∈ l.map (·.1) := by
  induction l with
  | nil => simpa [insertNamed] using h
  | cons e l ih =>
    obtain ⟨k, b⟩ := e
    rw [insertNamed] at h
    split at h
    · simpa using h
    split at h
    · rcases List.mem_cons.mp h with h | h
      · exact Or.inl h
      · exact Or.inr (List.mem_cons_of_mem _ h)
    · rcases List.mem_cons.mp h with h | h
      · exact Or.inr (h ▸ List.mem_cons_self)
      · exact (ih h).imp_right (List.mem_cons_of_mem _)

theorem Ascending.insertNamed (h : Ascending l) : Ascending (insertNamed name a l) := by
  induction l with
  | nil => exact List.pairwise_singleton _ _
  | cons e l ih =>
    obtain ⟨k, b⟩ := e
    have hl := ascending_cons.mp h
    rw [Value.insertNamed]
    split
    case isTrue hlt =>
      refine ascending_cons.mpr ⟨fun n hn => ?_, h⟩
      rcases List.mem_cons.mp hn with rfl | hn
      · exact hlt
      · exact hlt.trans (hl.1 n hn)
    case isFalse hnot =>
      split
      case isTrue heq =>
        obtain rfl : name = k := by simpa using heq
        exact ascending_cons.mpr hl
      case isFalse hne =>
        have hne : name ≠ k := by simpa using hne
        have hgt : k < name := lt_of_le_of_ne (not_lt.mp hnot) hne.symm
        refine ascending_cons.mpr ⟨fun n hn => ?_, ih hl.2⟩
        rcases name_of_mem_insertNamed hn with rfl | hn
        · exact hgt
        · exact hl.1 n hn

theorem perm_insertNamed (h : name ∉ l.map (·.1)) :
    (insertNamed name a l).Perm ((name, a) :: l) := by
  induction l with
  | nil => exact List.Perm.refl _
  | cons e l ih =>
    obtain ⟨k, b⟩ := e
    rw [List.map_cons, List.mem_cons, not_or] at h
    rw [insertNamed]
    split
    · exact List.Perm.refl _
    · rw [if_neg (by simpa using h.1)]
      exact ((ih h.2).cons _).trans (List.Perm.swap _ _ _)

theorem mem_insertNamed {e : String × α} (h : e ∈ insertNamed name a l) : e = (name, a) ∨ e ∈ l := by
  induction l with
  | nil => exact .inl (List.mem_singleton.mp h)
  | cons d l ih =>
    obtain ⟨m, b⟩ := d
    rw [insertNamed] at h
    split at h
    · exact List.mem_cons.mp h
    split at h
    · exact (List.mem_cons.mp h).imp_right (List.mem_cons_of_mem _)
    · rcases List.mem_cons.mp h with rfl | h
      · exact .inr List.mem_cons_self
      · exact (ih h).imp_right (List.mem_cons_of_mem _)

theorem mem_of_mem_sortNamed {e : String × α} (h : e ∈ sortNamed l) : e ∈ l := by
  have hfold : ∀ {l acc : List (String × α)},
      e ∈ l.foldl (fun sorted d => insertNamed d.1 d.2 sorted) acc → e ∈ acc ∨ e ∈ l := by
    intro l
    induction l with
    | nil => exact fun h => .inl h
    | cons d l ih =>
      intro acc h
      rcases ih h with h | h
      · rcases mem_insertNamed h with rfl | h
        · exact .inr List.mem_cons_self
        · exact .inl h
      · exact .inr (List.mem_cons_of_mem _ h)
  exact (hfold h).resolve_left List.not_mem_nil

/-- Sorted names ascend. -/
theorem ascending_sortNamed (l : List (String × α)) : Ascending (sortNamed l) := by
  have hfold : ∀ {l acc : List (String × α)}, Ascending acc →
      Ascending (l.foldl (fun sorted e => insertNamed e.1 e.2 sorted) acc) := by
    intro l
    induction l with
    | nil => exact fun h => h
    | cons e l ih => exact fun h => ih h.insertNamed
  exact hfold List.Pairwise.nil

theorem perm_sortNamed (h : (l.map (·.1)).Nodup) : (sortNamed l).Perm l := by
  have hfold : ∀ {l} (acc : List (String × α)), ((l ++ acc).map (·.1)).Nodup →
      (l.foldl (fun sorted e => insertNamed e.1 e.2 sorted) acc).Perm (l ++ acc) := by
    intro l
    induction l with
    | nil => exact fun _ _ => List.Perm.refl _
    | cons e l ih =>
      intro acc hnd
      have hfresh : e.1 ∉ acc.map (·.1) := fun hmem => by
        rw [List.cons_append, List.map_cons, List.nodup_cons, List.map_append] at hnd
        exact hnd.1 (List.mem_append_right _ hmem)
      have hmove : (l ++ insertNamed e.1 e.2 acc).Perm (e :: l ++ acc) :=
        ((perm_insertNamed hfresh).append_left l).trans List.perm_middle
      exact (ih _ ((hmove.map _).nodup_iff.mpr hnd)).trans hmove
  have hall := hfold (l := l) [] (by rwa [List.append_nil])
  rwa [List.append_nil] at hall

/-- Sorting finds the row of names that ascends. -/
theorem sortNamed_eq_of_perm (hm : Ascending m) (h : l.Perm m) : sortNamed l = m := by
  have hnd : (l.map (·.1)).Nodup := (h.map _).nodup_iff.mpr hm.nodup
  have hpair : ∀ {k : List (String × α)}, Ascending k → k.Pairwise fun a b => a.1 < b.1 :=
    fun hk => List.pairwise_map.mp hk
  refine List.Perm.eq_of_pairwise (fun a b _ _ hab hba => ?_) (hpair (ascending_sortNamed l))
    (hpair hm) ((perm_sortNamed hnd).trans h)
  exact absurd (hab.trans hba) (lt_irrefl _)

theorem sortNamed_of_ascending (h : Ascending l) : sortNamed l = l :=
  sortNamed_eq_of_perm h (List.Perm.refl l)

/-! ### Look-ups -/

theorem lookup_insertNamed_self : (insertNamed name a l).lookup name = some a := by
  induction l with
  | nil => simp [insertNamed]
  | cons e l ih =>
    obtain ⟨k, b⟩ := e
    rw [insertNamed]
    split
    · simp
    split
    · simp
    · rename_i hne
      rw [List.lookup_cons, beq_eq_false_iff_ne.mpr (by simpa using hne), ih]

theorem lookup_insertNamed_of_ne {n : String} (h : n ≠ name) :
    (insertNamed name a l).lookup n = l.lookup n := by
  have hn : (n == name) = false := beq_eq_false_iff_ne.mpr h
  induction l with
  | nil => simp [insertNamed, h]
  | cons e l ih =>
    obtain ⟨k, b⟩ := e
    rw [insertNamed]
    split
    · rw [List.lookup_cons, hn]
    split
    · rename_i heq
      obtain rfl : name = k := by simpa using heq
      rw [List.lookup_cons, List.lookup_cons, hn]
    · rw [List.lookup_cons, List.lookup_cons, ih]

/-- Of several values with one name the last counts. -/
theorem lookup_sortNamed (l : List (String × α)) (n : String) :
    (sortNamed l).lookup n = l.reverse.lookup n := by
  have hfold : ∀ l acc : List (String × α),
      (l.foldl (fun sorted e => insertNamed e.1 e.2 sorted) acc).lookup n =
        (l.reverse ++ acc).lookup n := by
    intro l
    induction l with
    | nil => exact fun _ => rfl
    | cons e l ih =>
      intro acc
      rw [List.foldl_cons, ih, List.reverse_cons, List.append_assoc, List.lookup_append,
        List.lookup_append, List.singleton_append]
      by_cases hn : n = e.1
      · subst hn
        rw [lookup_insertNamed_self, List.lookup_cons_self]
      · rw [lookup_insertNamed_of_ne hn, List.lookup_cons, beq_eq_false_iff_ne.mpr hn]
  rw [sortNamed, hfold l [], List.append_nil]

theorem isSome_lookup_iff {n : String} {l : List (String × α)} :
    (l.lookup n).isSome = true ↔ n ∈ l.map (·.1) := by
  induction l with
  | nil => simp
  | cons e l ih =>
    rw [List.lookup_cons, List.map_cons, List.mem_cons, ← ih]
    cases hn : n == e.1 with
    | true => simp [beq_iff_eq.mp hn]
    | false => simp [beq_eq_false_iff_ne.mp hn]

theorem mem_names_sortNamed {n : String} :
    n ∈ (sortNamed l).map (·.1) ↔ n ∈ l.map (·.1) := by
  rw [← isSome_lookup_iff, lookup_sortNamed, isSome_lookup_iff, List.map_reverse,
    List.mem_reverse]

/-! ### Values that are mapped -/

section map

variable {β : Type}

theorem insertNamed_map (f : α → β) (name : String) (a : α) (l : List (String × α)) :
    insertNamed name (f a) (l.map fun e => (e.1, f e.2)) =
      (insertNamed name a l).map fun e => (e.1, f e.2) := by
  induction l with
  | nil => rfl
  | cons e l ih =>
    rw [List.map_cons, insertNamed, insertNamed]
    split
    · rfl
    split
    · rfl
    · rw [ih, List.map_cons]

theorem sortNamed_map (f : α → β) (l : List (String × α)) :
    sortNamed (l.map fun e => (e.1, f e.2)) = (sortNamed l).map fun e => (e.1, f e.2) := by
  have hfold : ∀ sorted : List (String × α),
      (l.map fun e => (e.1, f e.2)).foldl (fun sorted e => insertNamed e.1 e.2 sorted)
          (sorted.map fun e => (e.1, f e.2)) =
        (l.foldl (fun sorted e => insertNamed e.1 e.2 sorted) sorted).map
          fun e => (e.1, f e.2) := by
    induction l with
    | nil => exact fun _ => rfl
    | cons e l ih =>
      intro sorted
      rw [List.map_cons, List.foldl_cons, List.foldl_cons, ← ih, ← insertNamed_map]
  exact hfold []

theorem lookup_map_snd (f : α → β) (l : List (String × α)) (n : String) :
    (l.map fun e => (e.1, f e.2)).lookup n = (l.lookup n).map f := by
  induction l with
  | nil => rfl
  | cons e l ih =>
    rw [List.map_cons, List.lookup_cons, List.lookup_cons, ih]
    cases n == e.1 <;> rfl

/-- Of several values with one name the last counts, also if they come from a longer
list. -/
theorem lookup_sortNamed_filterMap {α β : Type} (name? : α → Option String)
    (value : α → String → β) (l : List α) (n : String) :
    (sortNamed (l.filterMap fun a => (name? a).map fun m => (m, value a m))).lookup n =
      (l.filter fun a => name? a == some n).getLast?.map (value · n) := by
  rw [lookup_sortNamed]
  induction l using List.reverseRecOn with
  | nil => rfl
  | append_singleton l a ih =>
    rw [List.filterMap_append, List.filter_append, List.reverse_append, List.lookup_append, ih,
      List.getLast?_append]
    cases hname : name? a with
    | none => simp [hname]
    | some m =>
      by_cases hm : n = m
      · simp [hname, hm]
      · have hne : (n == m) = false := beq_eq_false_iff_ne.mpr hm
        simp [hname, List.lookup_cons, hne, Ne.symm hm]

end map

end SolidityCanvas.Value
