/-
The composed normal form is a fixed point.

Composition only puts together what decomposition takes apart, up to the order
of marks of different classes, and that order does not survive `reorder`. So a
composed text, taken apart and ordered again, gives the list it was composed
from (`reorder_decompose_compose`), and normalizing twice is normalizing once
(`normalize_normalize`).
-/
import Mathlib.Data.List.Chain
import Mathlib.Data.List.Nodup
import SolidityCanvas.Proofs.Basic
import SolidityCanvas.Text.Normal

namespace SolidityCanvas.Text

/-! ### The table of decompositions -/

/-- All characters that stand for others. -/
def decompositions : List (Nat × List Nat) := composites ++ decomposedOnly

/-- A set of code points, as the bits of one number. -/
def codeMask : List Nat → Nat
  | [] => 0
  | n :: ns => 1 <<< n ||| codeMask ns

theorem testBit_codeMask (ns : List Nat) (n : Nat) : (codeMask ns).testBit n = decide (n ∈ ns) := by
  induction ns with
  | nil => simp [codeMask]
  | cons m ns ih =>
    rw [codeMask, Nat.testBit_or, ih, Nat.one_shiftLeft, Nat.testBit_two_pow]
    by_cases h : m = n
    · simp [h]
    · simp [h, Ne.symm h]

/-- The characters with a part among `ns`. -/
def standFor (ns : List Nat) : List Nat :=
  (decompositions.filter fun e => e.2.any (codeMask ns).testBit).map (·.1)

/-- The characters that need more than `depth` steps. -/
def deeperThan : Nat → List Nat
  | 0 => decompositions.map (·.1)
  | depth + 1 => standFor (deeperThan depth)

theorem mem_deeperThan_succ {depth n p : Nat} {parts : List Nat}
    (h : (n, parts) ∈ decompositions) (hp : p ∈ parts) (hdeep : p ∈ deeperThan depth) :
    n ∈ deeperThan (depth + 1) := by
  refine List.mem_map.mpr ⟨(n, parts), List.mem_filter.mpr ⟨h, ?_⟩, rfl⟩
  exact List.any_eq_true.mpr ⟨p, hp, by simpa [testBit_codeMask] using hdeep⟩

/-- The tables hold code points, nothing needs a fourth step, and no syllable, none of
their parts and no character of the first block has an entry. -/
theorem decompositions_checked : deeperThan 3 = [] ∧ (composites.map (·.1)).IsChain (· < ·) ∧
    ∀ e ∈ decompositions, (∀ n ∈ e.1 :: e.2, n.isValidChar) ∧
      0xC0 ≤ e.1 ∧ ¬ (0x1100 ≤ e.1 ∧ e.1 < 0x1200) ∧ ¬ (0xAC00 ≤ e.1 ∧ e.1 ≤ 0xD7A3) := by
  refine ⟨?_, ?_, ?_⟩ <;> decide +kernel

theorem deeperThan_three : deeperThan 3 = [] := decompositions_checked.1

theorem composites_nodup : (composites.map (·.1)).Nodup :=
  decompositions_checked.2.1.pairwise.imp Nat.ne_of_lt

theorem decompositions_valid : ∀ e ∈ decompositions, ∀ n ∈ e.1 :: e.2, n.isValidChar :=
  fun e he => (decompositions_checked.2.2 e he).1

/-- No syllable, none of their parts and no character of the first block has
an entry. -/
theorem decompositions_other : ∀ e ∈ decompositions,
    0xC0 ≤ e.1 ∧ ¬ (0x1100 ≤ e.1 ∧ e.1 < 0x1200) ∧ ¬ (0xAC00 ≤ e.1 ∧ e.1 ≤ 0xD7A3) :=
  fun e he => (decompositions_checked.2.2 e he).2

theorem mem_of_decomposition? {n : Nat} {parts : List Nat} (h : decomposition? n = some parts) :
    (n, parts) ∈ decompositions := by
  unfold decomposition? at h
  split at h
  · cases h
  · cases hc : composites.lookup n with
    | some ps =>
      rw [hc] at h
      cases h
      exact List.mem_append_left _ (mem_of_lookup hc)
    | none =>
      rw [hc] at h
      exact List.mem_append_right _ (mem_of_lookup h)

theorem decomposition?_eq_none {n : Nat} (h : n ∉ deeperThan 0) : decomposition? n = none := by
  rw [Option.eq_none_iff_forall_ne_some]
  intro parts hparts
  exact h (List.mem_map_of_mem (mem_of_decomposition? hparts))

theorem mem_composites {a b c : Nat} (h : composite? a b = some c) : (c, [a, b]) ∈ composites := by
  obtain ⟨⟨d, ps⟩, he, rfl⟩ := Option.map_eq_some_iff.mp h
  have hps : ps = [a, b] := by simpa using List.find?_some he
  exact hps ▸ List.mem_of_find?_eq_some he

theorem decomposition?_composite {a b c : Nat} (h : composite? a b = some c) :
    decomposition? c = some [a, b] := by
  have hmem := mem_composites h
  have hlow := (decompositions_other _ (List.mem_append_left _ hmem)).1
  unfold decomposition?
  rw [if_neg (by simpa using hlow), lookup_of_mem composites_nodup hmem]
  rfl

/-! ### What decomposition leaves -/

/-- A code point that stands only for itself. -/
def Atomic (n : Nat) : Prop := syllableParts? n = none ∧ decomposition? n = none

theorem decomposeCode_of_atomic {n : Nat} (h : Atomic n) (depth : Nat) :
    decomposeCode depth n = [n] := by
  cases depth with
  | zero => rfl
  | succ depth => simp only [decomposeCode, h.1, h.2]

theorem decompose_of_atomic {ns : List Nat} (h : ∀ n ∈ ns, Atomic n) : decompose ns = ns := by
  induction ns with
  | nil => rfl
  | cons n ns ih =>
    rw [List.forall_mem_cons] at h
    rw [decompose, List.flatMap_cons, decomposeCode_of_atomic h.1]
    exact congrArg (n :: ·) (ih h.2)

/-- The parts of syllables stand for themselves. -/
theorem atomic_jamo {n : Nat} (h : 0x1100 ≤ n) (h' : n < 0x1200) : Atomic n := by
  constructor
  · simp only [syllableParts?, Bool.and_eq_true, decide_eq_true_eq]
    rw [if_neg (by omega)]
  · refine decomposition?_eq_none fun hmem => ?_
    obtain ⟨e, he, rfl⟩ := List.mem_map.mp hmem
    exact (decompositions_other e he).2.1 ⟨h, h'⟩

theorem jamo_of_syllableParts? {n m : Nat} {parts : List Nat} (h : syllableParts? n = some parts)
    (hm : m ∈ parts) : 0x1100 ≤ m ∧ m < 0x1200 := by
  simp only [syllableParts?, Bool.and_eq_true, decide_eq_true_eq] at h
  split at h
  · rw [Option.some_inj] at h
    subst h
    split at hm
    · simp only [List.mem_cons, List.not_mem_nil, or_false] at hm
      omega
    · simp only [List.mem_cons, List.not_mem_nil, or_false] at hm
      omega
  · cases h

theorem atomic_of_notMem_deeperThan {depth n : Nat} (h : n ∉ deeperThan depth) :
    ∀ m ∈ decomposeCode (depth + 1) n, Atomic m := by
  -- one step of `decomposeCode` against one level of `deeperThan`
  induction depth generalizing n with
  | zero =>
    have hnone := decomposition?_eq_none h
    intro m hm
    cases hs : syllableParts? n with
    | some parts =>
      simp only [decomposeCode, hs] at hm
      obtain ⟨hlow, hhigh⟩ := jamo_of_syllableParts? hs hm
      exact atomic_jamo hlow hhigh
    | none =>
      simp only [decomposeCode, hs, hnone, List.mem_singleton] at hm
      exact hm ▸ ⟨hs, hnone⟩
  | succ depth ih =>
    intro m hm
    rw [decomposeCode] at hm
    cases hs : syllableParts? n with
    | some parts =>
      simp only [hs] at hm
      obtain ⟨hlow, hhigh⟩ := jamo_of_syllableParts? hs hm
      exact atomic_jamo hlow hhigh
    | none =>
      cases hd : decomposition? n with
      | none =>
        simp only [hs, hd, List.mem_singleton] at hm
        exact hm ▸ ⟨hs, hd⟩
      | some parts =>
        simp only [hs, hd, List.mem_flatMap] at hm
        obtain ⟨p, hp, hm⟩ := hm
        exact ih (fun hdeep => h (mem_deeperThan_succ (mem_of_decomposition? hd) hp hdeep)) m hm

theorem atomic_of_mem_decompose {ns : List Nat} {m : Nat} (h : m ∈ decompose ns) : Atomic m := by
  obtain ⟨n, -, hm⟩ := List.mem_flatMap.mp h
  exact atomic_of_notMem_deeperThan (by simp [deeperThan_three]) m hm

/-- Where nothing is left to take apart, more steps change nothing. -/
theorem decomposeCode_succ {depth n : Nat} (h : ∀ m ∈ decomposeCode depth n, Atomic m) :
    decomposeCode (depth + 1) n = decomposeCode depth n := by
  induction depth generalizing n with
  | zero => exact decomposeCode_of_atomic (h n (List.mem_singleton_self n)) 1
  | succ depth ih =>
    rw [decomposeCode] at h
    rw [decomposeCode, decomposeCode]
    cases hs : syllableParts? n with
    | some parts => rfl
    | none =>
      cases hd : decomposition? n with
      | none => rfl
      | some parts =>
        simp only [hs, hd] at h
        refine List.flatMap_congr fun p hp => ih fun m hm => ?_
        exact h m (List.mem_flatMap.mpr ⟨p, hp, hm⟩)

/-! ### A pair and the character that replaces it -/

/-- The parts of the syllable with the given lead, vowel and tail. -/
theorem syllableParts?_eq (lead vowel tail : Nat) {n : Nat} (hlead : lead < 19)
    (hvowel : vowel < 21) (htail : tail < 28) (hn : n = 0xAC00 + (lead * 21 + vowel) * 28 + tail) :
    syllableParts? n = some (if tail = 0 then [0x1100 + lead, 0x1161 + vowel]
      else [0x1100 + lead, 0x1161 + vowel, 0x11A7 + tail]) := by
  have hrange : 0xAC00 ≤ n ∧ n ≤ 0xD7A3 := by omega
  have hlead' : (n - 0xAC00) / 588 = lead := by omega
  have hvowel' : (n - 0xAC00) % 588 / 28 = vowel := by omega
  have htail' : (n - 0xAC00) % 28 = tail := by omega
  simp only [syllableParts?, Bool.and_eq_true, decide_eq_true_eq, beq_iff_eq, hrange.1, hrange.2,
    hlead', hvowel', htail', and_self, if_true]

theorem decomposeCode_of_syllableParts? {n : Nat} {parts : List Nat}
    (h : syllableParts? n = some parts) : decomposeCode 4 n = parts := by
  simp only [decomposeCode, h]

theorem decomposeCode_syllable {a b c : Nat} (h : syllable? a b = some c) :
    decomposeCode 4 c = decomposeCode 4 a ++ decomposeCode 4 b := by
  simp only [syllable?, Bool.and_eq_true, decide_eq_true_eq, beq_iff_eq] at h
  split at h
  case isTrue hpair =>
    -- a lead and a vowel
    obtain ⟨⟨⟨ha, ha'⟩, hb⟩, hb'⟩ := hpair
    rw [Option.some_inj] at h
    have hparts := decomposeCode_of_syllableParts? (syllableParts?_eq (n := c) (a - 0x1100)
      (b - 0x1161) 0 (by omega) (by omega) (by omega) (by omega))
    rw [hparts, decomposeCode_of_atomic (atomic_jamo ha (by omega)),
      decomposeCode_of_atomic (atomic_jamo (by omega) (by omega)), if_pos rfl,
      Nat.add_sub_cancel' ha, Nat.add_sub_cancel' hb]
    rfl
  case isFalse =>
    split at h
    case isTrue hpair =>
      -- a syllable without a tail, and the tail
      obtain ⟨⟨⟨⟨ha, ha'⟩, hopen⟩, hb⟩, hb'⟩ := hpair
      rw [Option.some_inj] at h
      have hopen := decomposeCode_of_syllableParts? (syllableParts?_eq (n := a)
        ((a - 0xAC00) / 588) ((a - 0xAC00) / 28 % 21) 0 (by omega) (by omega) (by omega)
        (by omega))
      have hclosed := decomposeCode_of_syllableParts? (syllableParts?_eq (n := c)
        ((a - 0xAC00) / 588) ((a - 0xAC00) / 28 % 21) (b - 0x11A7) (by omega) (by omega)
        (by omega) (by omega))
      rw [hopen, hclosed, decomposeCode_of_atomic (atomic_jamo (by omega) (by omega)), if_pos rfl,
        if_neg (by omega), Nat.add_sub_cancel' (by omega)]
      rfl
    case isFalse => cases h

theorem decomposeCode_composite {a b c : Nat} (h : composite? a b = some c) :
    decomposeCode 4 c = decomposeCode 4 a ++ decomposeCode 4 b := by
  have hmem : (c, [a, b]) ∈ decompositions := List.mem_append_left _ (mem_composites h)
  have hsyllable : syllableParts? c = none := by
    have hc := (decompositions_other _ hmem).2.2
    simpa only [syllableParts?, Bool.and_eq_true, decide_eq_true_eq, ite_eq_right_iff,
      reduceCtorEq, imp_false] using hc
  have hpart : ∀ p ∈ [a, b], decomposeCode 3 p = decomposeCode 4 p := by
    intro p hp
    have hshallow : p ∉ deeperThan 2 := fun hdeep => by
      have hc := mem_deeperThan_succ hmem hp hdeep
      simp [deeperThan_three] at hc
    exact (decomposeCode_succ (atomic_of_notMem_deeperThan hshallow)).symm
  rw [decomposeCode, hsyllable, decomposition?_composite h]
  simp [hpart a (by simp), hpart b (by simp)]

theorem decomposeCode_pair {a b c : Nat} (h : pair? a b = some c) :
    decomposeCode 4 c = decomposeCode 4 a ++ decomposeCode 4 b := by
  unfold pair? at h
  cases hs : syllable? a b with
  | some d =>
    rw [hs] at h
    cases h
    exact decomposeCode_syllable hs
  | none =>
    rw [hs] at h
    exact decomposeCode_composite h

/-! ### The order of marks -/

/-- A mark never follows one of a greater class. -/
def Ordered (ns : List Nat) : Prop :=
  ns.IsChain fun a b => combiningClass b = 0 ∨ combiningClass a ≤ combiningClass b

/-- Marks in the order of their classes, with no starter among them. -/
def IsRun (run : List Nat) : Prop :=
  run.Pairwise (fun a b => combiningClass a ≤ combiningClass b) ∧ ∀ m ∈ run, combiningClass m ≠ 0

theorem isRun_nil : IsRun [] := ⟨List.Pairwise.nil, by simp⟩

theorem IsRun.le_getLast? {run : List Nat} (h : IsRun run) {last : Nat}
    (hlast : run.getLast? = some last) : ∀ m ∈ run, combiningClass m ≤ combiningClass last := by
  obtain ⟨init, rfl⟩ := List.getLast?_eq_some_iff.mp hlast
  intro m hm
  rcases List.mem_append.mp hm with hm | hm
  · exact (List.pairwise_append.mp h.1).2.2 m hm last (by simp)
  · rw [List.mem_singleton.mp hm]

theorem mem_insertMark (n m : Nat) (run : List Nat) : m ∈ insertMark n run ↔ m = n ∨ m ∈ run := by
  induction run with
  | nil => simp [insertMark]
  | cons k run ih =>
    rw [insertMark]
    split
    · simp
    · rw [List.mem_cons, ih, List.mem_cons]
      tauto

theorem insertMark_of_le {n : Nat} {run : List Nat}
    (h : ∀ m ∈ run, combiningClass m ≤ combiningClass n) : insertMark n run = run ++ [n] := by
  induction run with
  | nil => rfl
  | cons m run ih =>
    rw [List.forall_mem_cons] at h
    rw [insertMark, if_neg (Nat.not_lt.mpr h.1), ih h.2, List.cons_append]

/-- Marks of different classes may come in either order. -/
theorem insertMark_comm {a b : Nat} (h : combiningClass a ≠ combiningClass b) (run : List Nat) :
    insertMark a (insertMark b run) = insertMark b (insertMark a run) := by
  induction run with
  | nil =>
    simp only [insertMark]
    rcases Nat.lt_or_gt_of_ne h with hlt | hgt
    · rw [if_pos hlt, if_neg (Nat.not_lt.mpr hlt.le)]
    · rw [if_neg (Nat.not_lt.mpr hgt.le), if_pos hgt]
  | cons m run ih =>
    by_cases ha : combiningClass a < combiningClass m <;>
      by_cases hb : combiningClass b < combiningClass m
    · rcases Nat.lt_or_gt_of_ne h with hlt | hgt
      · simp [insertMark, ha, hb, hlt, hlt.le]
      · simp [insertMark, ha, hb, hgt, hgt.le]
    · have hab : ¬ combiningClass b < combiningClass a := by omega
      simp [insertMark, ha, hb, hab]
    · have hba : ¬ combiningClass a < combiningClass b := by omega
      simp [insertMark, ha, hb, hba]
    · simp [insertMark, ha, hb, ih]

theorem IsRun.insertMark {n : Nat} {run : List Nat} (hn : combiningClass n ≠ 0)
    (h : IsRun run) : IsRun (insertMark n run) := by
  refine ⟨?_, fun m hm => ?_⟩
  · obtain ⟨hsorted, -⟩ := h
    induction run with
    | nil => simp [Text.insertMark]
    | cons m run ih =>
      have hm := List.pairwise_cons.mp hsorted
      rw [Text.insertMark]
      split
      case isTrue hlt =>
        refine List.pairwise_cons.mpr ⟨fun k hk => ?_, hsorted⟩
        rcases List.mem_cons.mp hk with rfl | hk
        · exact hlt.le
        · exact hlt.le.trans (hm.1 k hk)
      case isFalse hle =>
        refine List.pairwise_cons.mpr ⟨fun k hk => ?_, ih hm.2⟩
        rcases (mem_insertMark n k run).mp hk with rfl | hk
        · exact Nat.not_lt.mp hle
        · exact hm.1 k hk
  · rcases (mem_insertMark n m run).mp hm with rfl | hm
    · exact hn
    · exact h.2 m hm

theorem IsRun.ordered {run : List Nat} (h : IsRun run) : Ordered run :=
  (h.1.imp fun hle => Or.inr hle).isChain

theorem mem_reorderFrom (run ns : List Nat) (m : Nat) :
    m ∈ reorderFrom run ns ↔ m ∈ run ∨ m ∈ ns := by
  induction ns generalizing run with
  | nil => simp [reorderFrom]
  | cons n ns ih =>
    rw [reorderFrom]
    split
    · simp [ih]
    · rw [ih, mem_insertMark, List.mem_cons]
      tauto

theorem ordered_reorderFrom {run : List Nat} (h : IsRun run) (ns : List Nat) :
    Ordered (reorderFrom run ns) := by
  induction ns generalizing run with
  | nil => exact h.ordered
  | cons n ns ih =>
    rw [reorderFrom]
    split
    case isTrue hn =>
      have hzero : combiningClass n = 0 := by simpa using hn
      have htail := ih isRun_nil
      refine List.isChain_append.mpr ⟨h.ordered, ?_, ?_⟩
      · refine List.isChain_cons.mpr ⟨fun m hm => ?_, htail⟩
        exact Or.inr (by omega)
      · rintro a - b hb
        simp only [List.head?_cons, Option.mem_some_iff] at hb
        exact Or.inl (hb ▸ hzero)
    case isFalse hn => exact ih (h.insertMark (by simpa using hn))

theorem ordered_reorder (ns : List Nat) : Ordered (reorder ns) :=
  ordered_reorderFrom isRun_nil ns

theorem IsRun.le_of_ordered {run ns : List Nat} {n : Nat} (hrun : IsRun run)
    (hn : combiningClass n ≠ 0) (h : Ordered (run ++ n :: ns)) :
    ∀ m ∈ run, combiningClass m ≤ combiningClass n := by
  intro m hm
  obtain ⟨last, hlast⟩ := Option.isSome_iff_exists.mp
    (List.getLast?_isSome.mpr (List.ne_nil_of_mem hm))
  have hle := hrun.le_getLast? hlast m hm
  rcases (List.isChain_append.mp h).2.2 last hlast n rfl with hzero | hle'
  · exact absurd hzero hn
  · exact hle.trans hle'

theorem IsRun.concat {run : List Nat} {n : Nat} (hrun : IsRun run) (hn : combiningClass n ≠ 0)
    (hle : ∀ m ∈ run, combiningClass m ≤ combiningClass n) : IsRun (run ++ [n]) := by
  refine ⟨List.pairwise_append.mpr ⟨hrun.1, List.pairwise_singleton _ _, ?_⟩, fun m hm => ?_⟩
  · intro m hm k hk
    rw [List.mem_singleton.mp hk]
    exact hle m hm
  · rcases List.mem_append.mp hm with hm | hm
    · exact hrun.2 m hm
    · exact (List.mem_singleton.mp hm) ▸ hn

/-- What is in order stays as it is. -/
theorem reorderFrom_of_ordered {run ns : List Nat} (hrun : IsRun run) (h : Ordered (run ++ ns)) :
    reorderFrom run ns = run ++ ns := by
  induction ns generalizing run with
  | nil => simp [reorderFrom]
  | cons n ns ih =>
    rw [reorderFrom]
    split
    case isTrue =>
      have htail : Ordered ns := (List.isChain_append.mp h).2.1.tail
      rw [ih isRun_nil htail, List.nil_append]
    case isFalse hn =>
      have hnz : combiningClass n ≠ 0 := by simpa using hn
      have hle := hrun.le_of_ordered hnz h
      rw [insertMark_of_le hle, ih (hrun.concat hnz hle) (by simpa using h)]
      simp

theorem reorder_of_ordered {ns : List Nat} (h : Ordered ns) : reorder ns = ns :=
  reorderFrom_of_ordered isRun_nil h

theorem reorderFrom_swap {a b : Nat} (ha : combiningClass a ≠ 0) (hb : combiningClass b ≠ 0)
    (hab : combiningClass a ≠ combiningClass b) (run pre post : List Nat) :
    reorderFrom run (pre ++ a :: b :: post) = reorderFrom run (pre ++ b :: a :: post) := by
  induction pre generalizing run with
  | nil => simp [reorderFrom, ha, hb, insertMark_comm hab]
  | cons n pre ih => simp only [List.cons_append, reorderFrom, ih]

/-- A mark may be moved across marks of other classes. -/
theorem reorder_move {n : Nat} {run : List Nat} (hn : combiningClass n ≠ 0)
    (hrun : ∀ m ∈ run, combiningClass m ≠ 0 ∧ combiningClass m ≠ combiningClass n)
    (pre post : List Nat) :
    reorder (pre ++ n :: (run ++ post)) = reorder (pre ++ (run ++ n :: post)) := by
  induction run generalizing pre with
  | nil => rfl
  | cons m run ih =>
    rw [List.forall_mem_cons] at hrun
    have hstep := reorderFrom_swap hn hrun.1.1 (Ne.symm hrun.1.2) [] pre (run ++ post)
    have hrest := ih hrun.2 (pre ++ [m])
    simp only [List.append_assoc, List.cons_append, List.nil_append] at hrest
    exact hstep.trans hrest

/-! ### Composing and taking apart -/

/-- Whether a code point after `skipped` cannot reach the starter. -/
def blocks (skipped : List Nat) (n : Nat) : Bool :=
  match skipped.getLast? with
  | none => false
  | some m => combiningClass m == 0 || combiningClass n ≤ combiningClass m

theorem composeFrom_cons (starter : Nat) (skipped : List Nat) (n : Nat) (ns : List Nat) :
    composeFrom starter skipped (n :: ns) =
      match if blocks skipped n then none else pair? starter n with
      | some c => composeFrom c skipped ns
      | none =>
        if combiningClass n == 0 then starter :: skipped ++ composeFrom n [] ns
        else composeFrom starter (skipped ++ [n]) ns := rfl

/-- A code point is composed with the starter, is the next starter, or is
skipped. -/
theorem composeFrom_cons_cases (starter : Nat) (skipped : List Nat) (n : Nat) (ns : List Nat) :
    (∃ c, blocks skipped n = false ∧ pair? starter n = some c ∧
      composeFrom starter skipped (n :: ns) = composeFrom c skipped ns) ∨
    (combiningClass n = 0 ∧
      composeFrom starter skipped (n :: ns) = starter :: (skipped ++ composeFrom n [] ns)) ∨
    (combiningClass n ≠ 0 ∧
      composeFrom starter skipped (n :: ns) = composeFrom starter (skipped ++ [n]) ns) := by
  rw [composeFrom_cons]
  cases hpair : (if blocks skipped n then none else pair? starter n) with
  | some c =>
    split at hpair
    · cases hpair
    case isFalse hfree => exact Or.inl ⟨c, by simpa using hfree, hpair, rfl⟩
  | none =>
    by_cases hn : combiningClass n = 0
    · exact Or.inr (Or.inl ⟨hn, by simp [hn]⟩)
    · exact Or.inr (Or.inr ⟨hn, by simp [hn]⟩)

theorem IsRun.lt_of_not_blocks {skipped : List Nat} {n : Nat} (hrun : IsRun skipped)
    (h : blocks skipped n = false) : ∀ m ∈ skipped, combiningClass m < combiningClass n := by
  intro m hm
  obtain ⟨last, hlast⟩ := Option.isSome_iff_exists.mp
    (List.getLast?_isSome.mpr (List.ne_nil_of_mem hm))
  simp only [blocks, hlast, Bool.or_eq_false_iff, decide_eq_false_iff_not, Nat.not_le] at h
  exact (hrun.le_getLast? hlast m hm).trans_lt h.2

theorem Ordered.drop_middle {run ns : List Nat} {n : Nat} (h : Ordered (run ++ n :: ns))
    (hlt : ∀ m ∈ run, combiningClass m < combiningClass n) : Ordered (run ++ ns) := by
  obtain ⟨hrun, htail, -⟩ := List.isChain_append.mp h
  refine List.isChain_append.mpr ⟨hrun, htail.tail, fun a ha b hb => ?_⟩
  rcases (List.isChain_cons.mp htail).1 b hb with hzero | hle
  · exact Or.inl hzero
  · exact Or.inr ((hlt a (List.mem_of_getLast? ha)).le.trans hle)

theorem decompose_append (xs ys : List Nat) :
    decompose (xs ++ ys) = decompose xs ++ decompose ys := List.flatMap_append

theorem decompose_cons (n : Nat) (ns : List Nat) :
    decompose (n :: ns) = decomposeCode 4 n ++ decompose ns := List.flatMap_cons

theorem reorder_decompose_composeFrom (pre : List Nat) {starter : Nat} {skipped ns : List Nat}
    (hrun : IsRun skipped) (hordered : Ordered (skipped ++ ns))
    (hskipped : ∀ n ∈ skipped, Atomic n) (hns : ∀ n ∈ ns, Atomic n) :
    reorder (pre ++ decompose (composeFrom starter skipped ns)) =
      reorder (pre ++ (decomposeCode 4 starter ++ (skipped ++ ns))) := by
  -- along the recursion: what was composed into the starter is moved back over the skipped marks
  induction ns generalizing pre starter skipped with
  | nil => rw [composeFrom, decompose_cons, decompose_of_atomic hskipped, List.append_nil]
  | cons n ns ih =>
    rw [List.forall_mem_cons] at hns
    have hself : decomposeCode 4 n = [n] := decomposeCode_of_atomic hns.1 4
    rcases composeFrom_cons_cases starter skipped n ns with
      ⟨c, hfree, hpair, hstep⟩ | ⟨-, hstep⟩ | ⟨hnz, hstep⟩
    · have hlt := hrun.lt_of_not_blocks hfree
      rw [hstep, ih pre hrun (hordered.drop_middle hlt) hskipped hns.2, decomposeCode_pair hpair,
        hself]
      cases skipped with
      | nil => simp
      | cons m skipped =>
        have hnz : combiningClass n ≠ 0 := by
          have := hlt m List.mem_cons_self
          omega
        have hmove := reorder_move hnz
          (fun k hk => ⟨hrun.2 k hk, (hlt k hk).ne⟩) (pre ++ decomposeCode 4 starter) ns
        simpa using hmove
    · have htail : Ordered ns := (List.isChain_append.mp hordered).2.1.tail
      have hrest : reorder (pre ++ (decomposeCode 4 starter ++ skipped) ++
          decompose (composeFrom n [] ns)) = _ := ih _ isRun_nil htail (by simp) hns.2
      rw [hstep, decompose_cons, decompose_append, decompose_of_atomic hskipped]
      simpa [hself] using hrest
    · have hle := hrun.le_of_ordered hnz hordered
      have hatomic : ∀ m ∈ skipped ++ [n], Atomic m := by
        simpa [or_imp, forall_and] using ⟨hskipped, hns.1⟩
      rw [hstep, ih pre (hrun.concat hnz hle) (by simpa using hordered) hatomic hns.2]
      simp

/-- Composing, then taking apart and ordering, leads back. -/
theorem reorder_decompose_compose {ns : List Nat} (hordered : Ordered ns)
    (hatomic : ∀ n ∈ ns, Atomic n) : reorder (decompose (compose ns)) = ns := by
  suffices h : ∀ pre, reorder (pre ++ decompose (compose ns)) = reorder (pre ++ ns) from
    (h []).trans (reorder_of_ordered hordered)
  intro pre
  induction ns generalizing pre with
  | nil => rfl
  | cons n ns ih =>
    rw [List.forall_mem_cons] at hatomic
    have hself : decomposeCode 4 n = [n] := decomposeCode_of_atomic hatomic.1 4
    rw [compose]
    split
    · rw [reorder_decompose_composeFrom pre isRun_nil hordered.tail (by simp) hatomic.2, hself]
      rfl
    · rw [decompose_cons, hself]
      simpa using ih hordered.tail hatomic.2 (pre ++ [n])

/-! ### Code points and characters -/

theorem decomposeCode_valid {depth n : Nat} (h : n.isValidChar) :
    ∀ m ∈ decomposeCode depth n, m.isValidChar := by
  induction depth generalizing n with
  | zero => simpa [decomposeCode] using h
  | succ depth ih =>
    rw [decomposeCode]
    cases hs : syllableParts? n with
    | some parts =>
      intro m hm
      have hjamo := jamo_of_syllableParts? hs hm
      exact Or.inl (by omega)
    | none =>
      cases hd : decomposition? n with
      | none => simpa using h
      | some parts =>
        intro m hm
        obtain ⟨p, hp, hm⟩ := List.mem_flatMap.mp hm
        have hvalid := decompositions_valid _ (mem_of_decomposition? hd) p (List.mem_cons_of_mem _ hp)
        exact ih hvalid m hm

theorem decompose_valid {ns : List Nat} (h : ∀ n ∈ ns, n.isValidChar) :
    ∀ m ∈ decompose ns, m.isValidChar := by
  intro m hm
  obtain ⟨n, hn, hm⟩ := List.mem_flatMap.mp hm
  exact decomposeCode_valid (h n hn) m hm

theorem pair?_valid {a b c : Nat} (h : pair? a b = some c) : c.isValidChar := by
  unfold pair? at h
  cases hs : syllable? a b with
  | some d =>
    rw [hs] at h
    obtain rfl : d = c := Option.some_inj.mp h
    simp only [syllable?, Bool.and_eq_true, decide_eq_true_eq, beq_iff_eq] at hs
    split at hs
    · rw [Option.some_inj] at hs
      exact Or.inl (by omega)
    · split at hs
      · rw [Option.some_inj] at hs
        exact Or.inl (by omega)
      · cases hs
  | none =>
    rw [hs] at h
    exact decompositions_valid _ (List.mem_append_left _ (mem_composites h)) c List.mem_cons_self

theorem composeFrom_valid {starter : Nat} {skipped ns : List Nat} (hstarter : starter.isValidChar)
    (hskipped : ∀ n ∈ skipped, n.isValidChar) (hns : ∀ n ∈ ns, n.isValidChar) :
    ∀ m ∈ composeFrom starter skipped ns, m.isValidChar := by
  induction ns generalizing starter skipped with
  | nil => exact List.forall_mem_cons.mpr ⟨hstarter, hskipped⟩
  | cons n ns ih =>
    rw [List.forall_mem_cons] at hns
    rcases composeFrom_cons_cases starter skipped n ns with
      ⟨c, -, hpair, hstep⟩ | ⟨-, hstep⟩ | ⟨-, hstep⟩
    · exact hstep ▸ ih (pair?_valid hpair) hskipped hns.2
    · rw [hstep, List.forall_mem_cons, List.forall_mem_append]
      exact ⟨hstarter, hskipped, ih hns.1 (by simp) hns.2⟩
    · exact hstep ▸ ih hstarter (by simpa [or_imp, forall_and] using ⟨hskipped, hns.1⟩) hns.2

theorem compose_valid {ns : List Nat} (h : ∀ n ∈ ns, n.isValidChar) :
    ∀ m ∈ compose ns, m.isValidChar := by
  induction ns with
  | nil => simp [compose]
  | cons n ns ih =>
    rw [List.forall_mem_cons] at h
    rw [compose]
    split
    · exact composeFrom_valid h.1 (by simp) h.2
    · exact List.forall_mem_cons.mpr ⟨h.1, ih h.2⟩

/-- Code points of characters, written as a text, are its code points. -/
theorem map_toNat_ofList {ns : List Nat} (h : ∀ n ∈ ns, n.isValidChar) :
    (String.ofList (ns.map Char.ofNat)).toList.map Char.toNat = ns := by
  rw [String.toList_ofList, List.map_map]
  refine (List.map_congr_left fun n hn => ?_).trans (List.map_id ns)
  rw [Function.comp_apply, id_eq, Char.ofNat, dif_pos (h n hn)]
  rfl

/-- Normalizing twice is normalizing once. -/
theorem normalize_normalize (s : String) : normalize (normalize s) = normalize s := by
  by_cases hlow : s.toList.all fun c => c.toNat < 0x300
  · have hs : normalize s = s := if_pos hlow
    rw [hs, hs]
  · have hs : normalize s = String.ofList
        ((compose (reorder (decompose (s.toList.map Char.toNat)))).map Char.ofNat) := if_neg hlow
    set ns := reorder (decompose (s.toList.map Char.toNat)) with hns
    by_cases hlow' : (normalize s).toList.all fun c => c.toNat < 0x300
    · exact if_pos hlow'
    · have hmem : ∀ n ∈ ns, n ∈ decompose (s.toList.map Char.toNat) := fun n hn => by
        simpa using (mem_reorderFrom _ _ n).mp hn
      have hvalid : ∀ n ∈ ns, n.isValidChar := fun n hn =>
        decompose_valid (by simpa using fun c _ => c.valid) n (hmem n hn)
      have hatomic : ∀ n ∈ ns, Atomic n := fun n hn => atomic_of_mem_decompose (hmem n hn)
      have hback : reorder (decompose (compose ns)) = ns :=
        reorder_decompose_compose (ordered_reorder _) hatomic
      have hagain : normalize (normalize s) = String.ofList ((compose (reorder (decompose
          ((normalize s).toList.map Char.toNat)))).map Char.ofNat) := if_neg hlow'
      rw [hagain, hs, map_toNat_ofList (compose_valid hvalid), hback]

end SolidityCanvas.Text
