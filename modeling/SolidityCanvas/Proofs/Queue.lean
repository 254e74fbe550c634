/-
Queues are in order.

A queue is in order if no member is less than the one above it
(`Queue.InOrder`), and then no member is less than the first one
(`InOrder.first`).  Moving a member up or down restores the order around it:

* `Rising.siftUp`: a member that may be less than the one above it, and nothing
  else is out of order;
* `Sinking.siftDown`: a member that may be greater than those below it, and
  nothing else is out of order.

Hence a queue that is made of some members holds them in order
(`isOrdered_ofArray`), `push` adds one, and `pop?` takes a least one out
(`IsOrdered.pop?`).  Which members a queue holds does not depend on `less` at
all (`perm_ofArray`, `perm_push`, `perm_pop?`).
-/
import Mathlib.Data.List.Basic
import Mathlib.Data.Set.Basic
import Mathlib.Logic.Equiv.Basic
import SolidityCanvas.Queue

namespace SolidityCanvas

namespace Queue

variable {α : Type} {less : α → α → Bool} {S : Set α} {row : Array α} {i j k : Nat}

/-- The members of a set are ranked by `less`: it never holds both ways, and
not being less carries over. -/
structure Ranks (less : α → α → Bool) (S : Set α) : Prop where
  asymm : ∀ {a b}, a ∈ S → b ∈ S → less a b = true → less b a = false
  trans : ∀ {a b c}, a ∈ S → b ∈ S → c ∈ S → less a b = false → less b c = false →
    less a c = false

/-! ### Places -/

theorem above_lt (h : 0 < i) : above i < i := by
  rw [above]
  omega

theorem eq_of_above_eq (h : 0 < k) (hk : above k = i) : k = 2 * i + 1 ∨ k = 2 * i + 2 := by
  rw [above] at hk
  omega

theorem above_left (i : Nat) : above (2 * i + 1) = i := by
  rw [above]
  omega

theorem above_right (i : Nat) : above (2 * i + 2) = i := by
  rw [above]
  omega

theorem lessAt_eq_true : lessAt less row i j = true ↔
    ∃ a b, row[i]? = some a ∧ row[j]? = some b ∧ less a b = true := by
  rw [lessAt]
  cases hi : row[i]? with
  | none => simp
  | some a =>
    cases hj : row[j]? with
    | none => simp
    | some b => simp

theorem lessAt_eq_false : lessAt less row i j = false ↔
    ∀ a b, row[i]? = some a → row[j]? = some b → less a b = false := by
  rw [← Bool.not_eq_true, lessAt_eq_true]
  constructor
  · intro h a b ha hb
    exact Bool.eq_false_iff.mpr fun hab => h ⟨a, b, ha, hb, hab⟩
  · rintro h ⟨a, b, ha, hb, hab⟩
    exact absurd hab (by simp [h a b ha hb])

theorem lt_size_of_lessAt (h : lessAt less row i j = true) : i < row.size ∧ j < row.size := by
  obtain ⟨a, b, ha, hb, _⟩ := lessAt_eq_true.mp h
  exact ⟨(Array.getElem?_eq_some_iff.mp ha).1, (Array.getElem?_eq_some_iff.mp hb).1⟩

theorem lessAt_of_size_le (h : row.size ≤ i) (j : Nat) : lessAt less row i j = false :=
  lessAt_eq_false.mpr fun a _ ha _ => by
    rw [Array.getElem?_eq_none h] at ha
    cases ha

theorem Ranks.lessAt_asymm (hless : Ranks less S) (hrow : ∀ a ∈ row, a ∈ S)
    (h : lessAt less row i j = true) : lessAt less row j i = false := by
  obtain ⟨a, b, ha, hb, hab⟩ := lessAt_eq_true.mp h
  refine lessAt_eq_false.mpr fun b' a' hb' ha' => ?_
  obtain rfl := Option.some.inj (hb.symm.trans hb')
  obtain rfl := Option.some.inj (ha.symm.trans ha')
  exact hless.asymm (hrow _ (Array.mem_of_getElem? ha)) (hrow _ (Array.mem_of_getElem? hb)) hab

theorem Ranks.lessAt_trans (hless : Ranks less S) (hrow : ∀ a ∈ row, a ∈ S)
    (hj : j < row.size) (hij : lessAt less row i j = false) (hjk : lessAt less row j k = false) :
    lessAt less row i k = false := by
  refine lessAt_eq_false.mpr fun a c ha hc => ?_
  have hb : row[j]? = some row[j] := Array.getElem?_eq_getElem hj
  exact hless.trans (hrow _ (Array.mem_of_getElem? ha)) (hrow _ (Array.mem_of_getElem? hb))
    (hrow _ (Array.mem_of_getElem? hc)) (lessAt_eq_false.mp hij _ _ ha hb)
    (lessAt_eq_false.mp hjk _ _ hb hc)

/-! ### Exchanging two members -/

theorem getElem?_swapIfInBounds (hi : i < row.size) (hj : j < row.size) (k : Nat) :
    (row.swapIfInBounds i j)[k]? = row[Equiv.swap i j k]? := by
  rw [Array.swapIfInBounds_def, dif_pos hi, dif_pos hj, Array.getElem?_swap hi hj,
    Equiv.swap_apply_def]
  by_cases hki : k = i
  · subst hki
    by_cases hjk : j = k <;> simp [hjk, hj]
  · by_cases hkj : k = j
    · subst hkj
      simp [hki, hi]
    · rw [if_neg (Ne.symm hkj), if_neg (Ne.symm hki), if_neg hki, if_neg hkj]

theorem lessAt_swap (hi : i < row.size) (hj : j < row.size) (k l : Nat) :
    lessAt less (row.swapIfInBounds i j) k l =
      lessAt less row (Equiv.swap i j k) (Equiv.swap i j l) := by
  rw [lessAt, lessAt, getElem?_swapIfInBounds hi hj, getElem?_swapIfInBounds hi hj]

theorem perm_swap (row : Array α) (i j : Nat) :
    (row.swapIfInBounds i j).toList.Perm row.toList := by
  rw [Array.swapIfInBounds_def]
  split
  · split
    · exact Array.perm_iff_toList_perm.mp (Array.swap_perm _ _)
    · exact .refl _
  · exact .refl _

theorem mem_of_perm {row' : Array α} (h : row'.toList.Perm row.toList)
    (hrow : ∀ a ∈ row, a ∈ S) : ∀ a ∈ row', a ∈ S :=
  fun a ha => hrow a (Array.mem_toList_iff.mp (h.mem_iff.mp (Array.mem_toList_iff.mpr ha)))

/-! ### Order -/

/-- No member is less than the one above it, from a place on. -/
def InOrder (less : α → α → Bool) (row : Array α) (start : Nat) : Prop :=
  ∀ k, 0 < k → start ≤ above k → lessAt less row k (above k) = false

/-- No member is less than the first. -/
theorem InOrder.first (hless : Ranks less S) (hrow : ∀ a ∈ row, a ∈ S)
    (h : InOrder less row 0) (k : Nat) : lessAt less row k 0 = false := by
  induction k using Nat.strong_induction_on with
  | h k ih =>
    rcases Nat.eq_zero_or_pos k with rfl | hk
    · refine Bool.eq_false_iff.mpr fun hlt => ?_
      exact absurd hlt (by simp [hless.lessAt_asymm hrow hlt])
    · by_cases hsize : k < row.size
      · have hlt := above_lt hk
        exact hless.lessAt_trans hrow (hlt.trans hsize) (h k hk (Nat.zero_le _)) (ih _ hlt)
      · exact lessAt_of_size_le (Nat.le_of_not_lt hsize) 0

/-- Only the member at `i` may be less than the one above it, and those below
it are not less than that one. -/
structure Rising (less : α → α → Bool) (row : Array α) (i : Nat) : Prop where
  others : ∀ k, 0 < k → k ≠ i → lessAt less row k (above k) = false
  below : i ≠ 0 → ∀ k, 0 < k → above k = i → lessAt less row k (above i) = false

/-- A member that is less than the one above it takes its place. -/
theorem Rising.swap (hless : Ranks less S) (hrow : ∀ a ∈ row, a ∈ S) (h : Rising less row i)
    (hi : i ≠ 0) (hlt : lessAt less row i (above i) = true) :
    Rising less (row.swapIfInBounds i (above i)) (above i) := by
  obtain ⟨hsize, hsize'⟩ := lt_size_of_lessAt hlt
  have hai := above_lt (Nat.pos_of_ne_zero hi)
  refine ⟨fun k hk hka => ?_, fun ha k hk hka => ?_⟩
  · rw [lessAt_swap hsize hsize', Equiv.swap_apply_def, Equiv.swap_apply_def]
    by_cases hki : k = i
    -- What came down is not less than the member.
    · subst hki
      rw [if_pos rfl, if_neg (Nat.ne_of_lt hai), if_pos rfl]
      exact hless.lessAt_asymm hrow hlt
    · rw [if_neg hki, if_neg hka]
      by_cases hbelow : above k = i
      -- What was below the member is not less than what came down.
      · rw [if_pos hbelow]
        exact h.below hi k hk hbelow
      · rw [if_neg hbelow]
        by_cases hbeside : above k = above i
        -- What stands beside the member is not less than what came down.
        · rw [if_pos hbeside]
          have hnext := h.others k hk hki
          rw [hbeside] at hnext
          exact hless.lessAt_trans hrow hsize' hnext (hless.lessAt_asymm hrow hlt)
        · rw [if_neg hbeside]
          exact h.others k hk hki
  · have haa := above_lt (Nat.pos_of_ne_zero ha)
    have hstays : Equiv.swap i (above i) (above (above i)) = above (above i) :=
      Equiv.swap_apply_of_ne_of_ne (by omega) (by omega)
    rw [lessAt_swap hsize hsize', hstays, Equiv.swap_apply_def]
    have htop := h.others (above i) (Nat.pos_of_ne_zero ha) (Nat.ne_of_lt hai)
    -- Below the new place stand what came down and what stood beside it.
    by_cases hki : k = i
    · rw [if_pos hki]
      exact htop
    · have hka' : k ≠ above i := by
        have := above_lt hk
        omega
      rw [if_neg hki, if_neg hka']
      exact hless.lessAt_trans hrow hsize' (hka ▸ h.others k hk hki) htop

/-- **Moving up restores the order.** -/
theorem Rising.siftUp (hless : Ranks less S) : ∀ (steps : Nat) {row : Array α} {i : Nat},
    (∀ a ∈ row, a ∈ S) → i ≤ steps → Rising less row i →
      InOrder less (siftUp less steps row i) 0 := by
  intro steps
  induction steps with
  | zero =>
    intro row i _ hi h k hk _
    exact h.others k hk (by omega)
  | succ steps ih =>
    intro row i hrow hi h
    rw [Queue.siftUp]
    split
    · rename_i hmove
      rw [Bool.and_eq_true, bne_iff_ne] at hmove
      have hai := above_lt (Nat.pos_of_ne_zero hmove.1)
      exact ih (mem_of_perm (perm_swap ..) hrow) (by omega) (h.swap hless hrow hmove.1 hmove.2)
    · rename_i hstop
      rw [Bool.and_eq_true, bne_iff_ne, not_and, Bool.not_eq_true] at hstop
      intro k hk _
      by_cases hki : k = i
      · exact hki ▸ hstop (by omega)
      · exact h.others k hk hki

/-- From a place on, only the member at `i` may be greater than those below
it, and these are not less than the one above it. -/
structure Sinking (less : α → α → Bool) (row : Array α) (start i : Nat) : Prop where
  le : start ≤ i
  others : ∀ k, 0 < k → start ≤ above k → above k ≠ i → lessAt less row k (above k) = false
  below : i ≠ 0 → start ≤ above i → ∀ k, 0 < k → above k = i → lessAt less row k (above i) = false

theorem above_lesserBelow (less : α → α → Bool) (row : Array α) (i : Nat) :
    above (lesserBelow less row i) = i := by
  rw [lesserBelow]
  split
  · exact above_right i
  · exact above_left i

theorem lt_lesserBelow (less : α → α → Bool) (row : Array α) (i : Nat) :
    i < lesserBelow less row i := by
  rw [lesserBelow]
  split <;> omega

/-- Nothing below a place is less than the lesser one there. -/
theorem lessAt_lesserBelow (hless : Ranks less S) (hrow : ∀ a ∈ row, a ∈ S) (hk : 0 < k)
    (hki : above k = i) : lessAt less row k (lesserBelow less row i) = false := by
  have hself : ∀ l, lessAt less row l l = false := fun l =>
    Bool.eq_false_iff.mpr fun hlt => absurd hlt (by simp [hless.lessAt_asymm hrow hlt])
  rw [lesserBelow]
  split
  · rename_i hright
    rcases eq_of_above_eq hk hki with rfl | rfl
    · exact hless.lessAt_asymm hrow hright
    · exact hself _
  · rename_i hleft
    rcases eq_of_above_eq hk hki with rfl | rfl
    · exact hself _
    · exact Bool.eq_false_iff.mpr hleft

/-- A member that is greater than one below it changes places with the lesser
one. -/
theorem Sinking.swap (hless : Ranks less S) (hrow : ∀ a ∈ row, a ∈ S) {start : Nat}
    (h : Sinking less row start i) (hlt : lessAt less row (lesserBelow less row i) i = true) :
    Sinking less (row.swapIfInBounds i (lesserBelow less row i)) start
      (lesserBelow less row i) := by
  obtain ⟨hsize', hsize⟩ := lt_size_of_lessAt hlt
  have hij := lt_lesserBelow less row i
  have hji := above_lesserBelow less row i
  have hleast : ∀ k, 0 < k → above k = i → lessAt less row k (lesserBelow less row i) = false :=
    fun k hk hki => lessAt_lesserBelow hless hrow hk hki
  generalize lesserBelow less row i = j at *
  refine ⟨h.le.trans hij.le, fun k hk hs hkj => ?_, fun _ hs k hk hkj => ?_⟩
  · rw [lessAt_swap hsize hsize', Equiv.swap_apply_def, Equiv.swap_apply_def]
    by_cases hki : k = i
    -- What went up is not less than the one above.
    · subst hki
      have hak := above_lt hk
      rw [if_pos rfl, if_neg (by omega), if_neg hkj]
      exact h.below (by omega) hs j (by omega) hji
    · rw [if_neg hki]
      by_cases hk' : k = j
      · subst hk'
        rw [if_pos rfl, if_pos hji]
        exact hless.lessAt_asymm hrow hlt
      · rw [if_neg hk']
        by_cases hbeside : above k = i
        · rw [if_pos hbeside]
          exact hleast k hk hbeside
        · rw [if_neg hbeside, if_neg hkj]
          exact h.others k hk hs hbeside
  -- What is below the lesser one is not less than it.
  · have hjk := above_lt hk
    rw [lessAt_swap hsize hsize', hji, Equiv.swap_apply_left,
      Equiv.swap_apply_of_ne_of_ne (by omega) (by omega)]
    have hbelow := h.others k hk (hkj ▸ h.le.trans hij.le) (by omega)
    rwa [hkj] at hbelow

/-- **Moving down restores the order.** -/
theorem Sinking.siftDown (hless : Ranks less S) {start : Nat} : ∀ (steps : Nat) {row : Array α}
    {i : Nat}, (∀ a ∈ row, a ∈ S) → row.size ≤ steps + i → Sinking less row start i →
      InOrder less (siftDown less steps row i) start := by
  intro steps
  induction steps with
  | zero =>
    intro row i _ hi h k hk hs
    rw [Queue.siftDown]
    by_cases hki : above k = i
    -- Nothing stands below a place after the last.
    · have := above_lt hk
      exact lessAt_of_size_le (by omega) _
    · exact h.others k hk hs hki
  | succ steps ih =>
    intro row i hrow hi h
    rw [Queue.siftDown]
    split
    · rename_i hmove
      have hij := lt_lesserBelow less row i
      refine ih (mem_of_perm (perm_swap ..) hrow) ?_ (h.swap hless hrow hmove)
      rw [Array.size_swapIfInBounds]
      omega
    · rename_i hstop
      intro k hk hs
      by_cases hki : above k = i
      · by_cases hsize : lesserBelow less row i < row.size
        · rw [hki]
          exact hless.lessAt_trans hrow hsize (lessAt_lesserBelow hless hrow hk hki)
            (Bool.eq_false_iff.mpr hstop)
        -- The left place is out of the row, and so is the right one.
        · have hright : lessAt less row (2 * i + 2) (2 * i + 1) = true → False := by
            intro hright
            rw [lesserBelow, if_pos hright] at hsize
            exact hsize (lt_size_of_lessAt hright).1
          rw [lesserBelow, if_neg hright] at hsize
          refine lessAt_of_size_le ?_ _
          rcases eq_of_above_eq hk hki with rfl | rfl <;> omega
      · exact h.others k hk hs hki

/-! ### Members -/

theorem perm_siftUp (less : α → α → Bool) : ∀ (steps : Nat) (row : Array α) (i : Nat),
    (siftUp less steps row i).toList.Perm row.toList := by
  intro steps
  induction steps with
  | zero => exact fun _ _ => .refl _
  | succ steps ih =>
    intro row i
    rw [siftUp]
    split
    · exact (ih _ _).trans (perm_swap ..)
    · exact .refl _

theorem perm_siftDown (less : α → α → Bool) : ∀ (steps : Nat) (row : Array α) (i : Nat),
    (siftDown less steps row i).toList.Perm row.toList := by
  intro steps
  induction steps with
  | zero => exact fun _ _ => .refl _
  | succ steps ih =>
    intro row i
    rw [siftDown]
    split
    · exact (ih _ _).trans (perm_swap ..)
    · exact .refl _

theorem perm_settle (less : α → α → Bool) : ∀ (k : Nat) (row : Array α),
    (settle less k row).toList.Perm row.toList := by
  intro k
  induction k with
  | zero => exact fun _ => .refl _
  | succ k ih => exact fun row => (ih _).trans (perm_siftDown ..)

/-! ### Queues -/

/-- The members in the order of their places. -/
def toList (q : Queue α) : List α := q.row.toList

theorem perm_ofArray (less : α → α → Bool) (row : Array α) :
    (ofArray less row).toList.Perm row.toList :=
  perm_settle ..

theorem perm_push (less : α → α → Bool) (q : Queue α) (a : α) :
    (q.push less a).toList.Perm (a :: q.toList) := by
  refine (perm_siftUp ..).trans ?_
  rw [Array.toList_push]
  exact List.perm_append_singleton a _

theorem pop?_eq_none {q : Queue α} : q.pop? less = none ↔ q.toList = [] := by
  rw [pop?, toList, Array.toList_eq_nil_iff]
  cases h : q.row[0]? with
  | none => simpa using h
  | some a =>
    have hne : q.row ≠ #[] := by
      rintro hnil
      rw [hnil] at h
      cases h
    simp [hne]

/-- The rest of the row, with the last member in the first place. -/
theorem perm_rest {a : α} (h : row[0]? = some a) :
    row.toList.Perm (a :: (row.swapIfInBounds 0 (row.size - 1)).pop.toList) := by
  obtain ⟨hpos, ha⟩ := Array.getElem?_eq_some_iff.mp h
  have hlast : (row.swapIfInBounds 0 (row.size - 1))[row.size - 1]? = some a := by
    rw [getElem?_swapIfInBounds hpos (by omega), Equiv.swap_apply_right, h]
  refine (perm_swap row 0 (row.size - 1)).symm.trans ?_
  rw [Array.toList_pop]
  have hend : a ∈ (row.swapIfInBounds 0 (row.size - 1)).toList.getLast? := by
    rw [List.getLast?_eq_getElem?, Array.length_toList, Array.size_swapIfInBounds,
      Array.getElem?_toList]
    exact hlast
  exact (List.Perm.of_eq (List.dropLast_append_getLast? a hend).symm).trans
    (List.perm_append_singleton a _)

theorem perm_pop? {q q' : Queue α} {a : α} (h : q.pop? less = some (a, q')) :
    q.toList.Perm (a :: q'.toList) := by
  rw [pop?] at h
  split at h
  · cases h
  · rename_i b hb
    obtain ⟨rfl, rfl⟩ := Prod.mk.inj (Option.some.inj h)
    exact (perm_rest hb).trans ((perm_siftDown ..).symm.cons _)

/-- The queue is in order. -/
def IsOrdered (less : α → α → Bool) (q : Queue α) : Prop := InOrder less q.row 0

theorem inOrder_settle (hless : Ranks less S) : ∀ (k : Nat) {row : Array α},
    (∀ a ∈ row, a ∈ S) → InOrder less row k → InOrder less (settle less k row) 0 := by
  intro k
  induction k with
  | zero => exact fun _ h => h
  | succ k ih =>
    intro row hrow h
    refine ih (mem_of_perm (perm_siftDown ..) hrow) ?_
    refine Sinking.siftDown hless _ hrow (Nat.le_add_right _ _) ⟨Nat.le_refl k, ?_, ?_⟩
    · intro l hl hs hne
      exact h l hl (by omega)
    · intro hk hs
      have := above_lt (Nat.pos_of_ne_zero hk)
      omega

theorem isOrdered_ofArray (hless : Ranks less S) (hrow : ∀ a ∈ row, a ∈ S) :
    (ofArray less row).IsOrdered less := by
  refine inOrder_settle hless _ hrow fun k hk hs => lessAt_of_size_le ?_ _
  exact hs.trans (above_lt hk).le

theorem IsOrdered.push (hless : Ranks less S) {q : Queue α} (hq : ∀ a ∈ q.toList, a ∈ S)
    (h : q.IsOrdered less) {a : α} (ha : a ∈ S) : (q.push less a).IsOrdered less := by
  have hrow : ∀ b ∈ q.row.push a, b ∈ S := by
    intro b hb
    rcases Array.mem_push.mp hb with hb | rfl
    · exact hq b (Array.mem_toList_iff.mpr hb)
    · exact ha
  refine Rising.siftUp hless _ hrow (Nat.le_refl _) ⟨fun k hk hne => ?_, fun _ k hk hki => ?_⟩
  · have hak := above_lt hk
    by_cases hsize : k < q.row.size
    · have hold := h k hk (Nat.zero_le _)
      rw [lessAt, Array.getElem?_push, Array.getElem?_push, if_neg hne, if_neg (by omega)]
      exact hold
    · refine lessAt_of_size_le ?_ _
      rw [Array.size_push]
      omega
  -- Nothing stands below the last place.
  · have hak := above_lt hk
    refine lessAt_of_size_le ?_ _
    rw [Array.size_push]
    omega

/-- **What is taken out is a least member**, and the others stay in order. -/
theorem IsOrdered.pop? (hless : Ranks less S) {q q' : Queue α} (hq : ∀ a ∈ q.toList, a ∈ S)
    (h : q.IsOrdered less) {a : α} (hpop : q.pop? less = some (a, q')) :
    (∀ b ∈ q.toList, less b a = false) ∧ q'.IsOrdered less := by
  have hrow : ∀ b ∈ q.row, b ∈ S := fun b hb => hq b (Array.mem_toList_iff.mpr hb)
  rw [Queue.pop?] at hpop
  split at hpop
  · cases hpop
  rename_i first hfirst
  obtain ⟨rfl, rfl⟩ := Prod.mk.inj (Option.some.inj hpop)
  obtain ⟨hpos, _⟩ := Array.getElem?_eq_some_iff.mp hfirst
  constructor
  · intro b hb
    obtain ⟨k, hk⟩ := List.mem_iff_getElem?.mp hb
    rw [toList, Array.getElem?_toList] at hk
    exact lessAt_eq_false.mp (h.first hless hrow k) _ _ hk hfirst
  · have hrest : ∀ b ∈ (q.row.swapIfInBounds 0 (q.row.size - 1)).pop, b ∈ S := by
      intro b hb
      refine hrow b (Array.mem_toList_iff.mp ((perm_rest hfirst).mem_iff.mpr ?_))
      exact List.mem_cons_of_mem _ (Array.mem_toList_iff.mpr hb)
    refine Sinking.siftDown hless _ hrest (Nat.le_refl _) ⟨Nat.le_refl 0, fun k hk _ hne => ?_,
      fun h0 => absurd rfl h0⟩
    have hak := above_lt hk
    by_cases hsize : k < q.row.size - 1
    -- Away from the first place nothing has changed.
    · have hsame : ∀ l, l ≠ 0 → l < q.row.size - 1 →
          (q.row.swapIfInBounds 0 (q.row.size - 1)).pop[l]? = q.row[l]? := by
        intro l hl hlt
        rw [Array.getElem?_pop, Array.size_swapIfInBounds, if_pos hlt,
          getElem?_swapIfInBounds hpos (by omega), Equiv.swap_apply_of_ne_of_ne hl (by omega)]
      rw [lessAt, hsame k (by omega) hsize, hsame _ hne (by omega)]
      exact h k hk (Nat.zero_le _)
    · refine lessAt_of_size_le ?_ _
      rw [Array.size_pop, Array.size_swapIfInBounds]
      omega

end Queue

end SolidityCanvas
