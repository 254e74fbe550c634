/-
The normal form of texts that are joined.

Two texts have one normal form exactly if their marks are in one order once they are
taken apart (`normalize_eq_normalize_iff`), which a join does not disturb: the normal
form of a joined text depends only on those of its parts
(`normalize_append_congr`).  Some characters are never composed with others, and the
parts on both sides of one have normal forms of their own
(`normalize_around`).

Taking occurrences of a text away leaves fewer code points, so that it shows in the
normal form (`normalize_replaceAll_eq_iff`).
-/
import SolidityCanvas.Proofs.Text.Normal
import SolidityCanvas.Text.Split

namespace SolidityCanvas.Text

/-! ### Order of marks in joined texts -/

/-- The decomposed normal form: taken apart as far as it goes, with the marks in order. -/
def decomposed (ns : List Nat) : List Nat := reorder (decompose ns)

theorem length_insertMark (n : Nat) (run : List Nat) :
    (insertMark n run).length = run.length + 1 := by
  induction run with
  | nil => rfl
  | cons m run ih =>
    rw [insertMark]
    split
    · rfl
    · rw [List.length_cons, ih, List.length_cons]

theorem length_reorderFrom (run ns : List Nat) :
    (reorderFrom run ns).length = run.length + ns.length := by
  induction ns generalizing run with
  | nil => rfl
  | cons n ns ih =>
    rw [reorderFrom]
    split
    · rw [List.length_append, List.length_cons, ih, List.length_nil, Nat.zero_add,
        List.length_cons]
    · rw [ih, length_insertMark, List.length_cons]
      omega

theorem length_decomposed (ns : List Nat) : (decomposed ns).length = (decompose ns).length := by
  rw [decomposed, reorder, length_reorderFrom, List.length_nil, Nat.zero_add]

/-- A run is kept as it is. -/
theorem IsRun.reorderFrom_append {run : List Nat} (h : IsRun run) (ns : List Nat) :
    reorder (run ++ ns) = reorderFrom run ns := by
  suffices hmore : ∀ done rest, IsRun (done ++ rest) →
      reorderFrom done (rest ++ ns) = reorderFrom (done ++ rest) ns from hmore [] run h
  intro done rest
  induction rest generalizing done with
  | nil => simp
  | cons m rest ih =>
    intro hrun
    obtain ⟨-, -, hle⟩ := List.pairwise_append.mp hrun.1
    rw [List.cons_append, reorderFrom, if_neg (by simpa using hrun.2 m (by simp)),
      insertMark_of_le fun k hk => hle k hk m List.mem_cons_self, ih _ (by simpa using hrun)]
    simp

/-- The front may be put in order first. -/
theorem reorder_reorder_append (xs ys : List Nat) :
    reorder (reorder xs ++ ys) = reorder (xs ++ ys) := by
  suffices hmore : ∀ run, IsRun run →
      reorder (reorderFrom run xs ++ ys) = reorderFrom run (xs ++ ys) from hmore [] isRun_nil
  induction xs with
  | nil => exact fun run hrun => hrun.reorderFrom_append ys
  | cons n xs ih =>
    intro run hrun
    rw [List.cons_append, reorderFrom, reorderFrom]
    split
    next hn =>
      rw [List.append_assoc, hrun.reorderFrom_append, List.cons_append, reorderFrom, if_pos hn]
      exact congrArg (run ++ n :: ·) (ih [] isRun_nil)
    next hn => exact ih _ (hrun.insertMark (by simpa using hn))

/-- Where a mark goes in a run. -/
theorem exists_insertMark (n : Nat) {run : List Nat} (h : IsRun run) : ∃ low high,
    run = low ++ high ∧ insertMark n run = low ++ n :: high ∧
      ∀ m ∈ high, combiningClass n < combiningClass m := by
  induction run with
  | nil => exact ⟨[], [], rfl, rfl, by simp⟩
  | cons m run ih =>
    obtain ⟨hm, hrest⟩ := List.pairwise_cons.mp h.1
    rw [insertMark]
    split
    next hlt =>
      refine ⟨[], m :: run, rfl, rfl, List.forall_mem_cons.mpr ⟨hlt, fun k hk => ?_⟩⟩
      exact hlt.trans_le (hm k hk)
    next =>
      obtain ⟨low, high, rfl, hinsert, hhigh⟩ :=
        ih ⟨hrest, fun k hk => h.2 k (List.mem_cons_of_mem _ hk)⟩
      exact ⟨m :: low, high, rfl, congrArg (m :: ·) hinsert, hhigh⟩

/-- The end may be put in order first. -/
theorem reorder_append_reorder (xs ys : List Nat) :
    reorder (xs ++ reorder ys) = reorder (xs ++ ys) := by
  suffices hmore : ∀ pre run, IsRun run →
      reorder (pre ++ reorderFrom run ys) = reorder (pre ++ (run ++ ys)) from
    hmore xs [] isRun_nil
  induction ys with
  | nil => exact fun pre run _ => by rw [reorderFrom, List.append_nil]
  | cons n ys ih =>
    intro pre run hrun
    rw [reorderFrom]
    split
    next =>
      have hrest := ih (pre ++ (run ++ [n])) [] isRun_nil
      simpa using hrest
    next hn =>
      have hmark : combiningClass n ≠ 0 := by simpa using hn
      obtain ⟨low, high, rfl, hinsert, hhigh⟩ := exists_insertMark n hrun
      have hmarks : ∀ m ∈ high, combiningClass m ≠ 0 ∧ combiningClass m ≠ combiningClass n :=
        fun m hm => ⟨hrun.2 m (List.mem_append_right _ hm), Nat.ne_of_gt (hhigh m hm)⟩
      have hmove := reorder_move hmark hmarks (pre ++ low) ys
      rw [ih pre _ (hrun.insertMark hmark), hinsert]
      simpa using hmove

theorem decomposed_append (xs ys : List Nat) :
    decomposed (xs ++ ys) = reorder (decomposed xs ++ decomposed ys) := by
  rw [decomposed, decomposed, decomposed, decompose_append, reorder_reorder_append,
    reorder_append_reorder]

theorem atomic_of_mem_decomposed {ns : List Nat} {m : Nat} (h : m ∈ decomposed ns) : Atomic m :=
  atomic_of_mem_decompose (by simpa using (mem_reorderFrom _ _ m).mp h)

theorem decomposed_compose_decomposed (ns : List Nat) :
    decomposed (compose (decomposed ns)) = decomposed ns :=
  reorder_decompose_compose (ordered_reorder _) fun _ => atomic_of_mem_decomposed

/-! ### The first code points -/

/-- The characters of the first blocks that stand for others. -/
def lowComposites : List (Nat × List Nat) := composites.takeWhile (·.1 < 0x300)

/-- The marks in them that come after all others. -/
def lastMarks : List Nat :=
  [0x300, 0x301, 0x302, 0x303, 0x304, 0x306, 0x307, 0x308, 0x30A, 0x30B, 0x30C, 0x30F, 0x311]

/-- The marks in them. -/
def lowMarks : List Nat := [0x31B, 0x326, 0x327, 0x328] ++ lastMarks

/-- Those that stand for one with a mark of its own, and one more. -/
def twiceMarked : List Nat := (lowComposites.filter fun e => 0xC0 ≤ e.2.headD 0).map (·.1)

/-- Whether a character of the first blocks stands for another one and a mark. -/
def addsMark (e : Nat × List Nat) : Bool :=
  match e.2 with
  | [a, b] => decide (a < 0x300) && (codeMask lowMarks).testBit b &&
    (decide (a < 0xC0) || (codeMask lastMarks).testBit b && !(codeMask twiceMarked).testBit a)
  | _ => false

/-- A pair of a character of the first blocks and a mark as one number. -/
def pairCode (a b : Nat) : Nat := a * 0x30 + (b - 0x300)

/-- Whether no pair occurs twice; `seen` has the codes of those before. -/
def pairsDiffer (seen : Nat) : List (Nat × List Nat) → Bool
  | [] => true
  | e :: es =>
    let code := pairCode (e.2.headD 0) (e.2.getLastD 0)
    !seen.testBit code && pairsDiffer (1 <<< code ||| seen) es

/-- What the tables say of the first blocks: which characters stand for others, that the
marks do not, and that no pair has a space, a digit or a bracket in it, or ends with a
character of the first blocks. -/
theorem lowBlocks_checked :
    (lowMarks.all fun b => decide (combiningClass b ≠ 0 ∧ combiningClass b ≤ 230)) = true ∧
    (lastMarks.all fun b => combiningClass b == 230) = true ∧
    lowComposites.all addsMark = true ∧ pairsDiffer 0 lowComposites = true ∧
    (composites.all fun e => !(codeMask lowMarks).testBit e.1 && match e.2 with
      | [a, b] => decide (0x3C ≤ a ∧ 0x300 ≤ b)
      | _ => false) = true ∧
    (decomposedOnly.all fun e =>
      decide (0x300 ≤ e.1) && !e.2.isEmpty && !(codeMask lowMarks).testBit e.1) = true := by
  refine ⟨?_, ?_, ?_, ?_, ?_, ?_⟩ <;> decide +kernel

theorem combiningClass_of_low {n : Nat} (h : n < 0x300) : combiningClass n = 0 := if_pos h

/-- Where a table ascends, the entries up to a bound are in front. -/
theorem mem_takeWhile_of_ascending {es : List (Nat × List Nat)} {bound : Nat}
    (hes : es.Pairwise fun x y => x.1 < y.1) {e : Nat × List Nat} (h : e ∈ es) (he : e.1 < bound) :
    e ∈ es.takeWhile (·.1 < bound) := by
  induction es with
  | nil => exact absurd h List.not_mem_nil
  | cons d es ih =>
    obtain ⟨hd, hrest⟩ := List.pairwise_cons.mp hes
    have hlow : d.1 < bound := by
      rcases List.mem_cons.mp h with rfl | h
      · exact he
      · exact (hd e h).trans he
    rw [List.takeWhile_cons, if_pos (decide_eq_true hlow)]
    rcases List.mem_cons.mp h with rfl | h
    · exact List.mem_cons_self
    · exact List.mem_cons_of_mem _ (ih hrest h)

theorem mem_lowComposites {e : Nat × List Nat} (h : e ∈ composites) (hlow : e.1 < 0x300) :
    e ∈ lowComposites :=
  mem_takeWhile_of_ascending (List.pairwise_map.mp decompositions_checked.2.1.pairwise) h hlow

theorem composites_parts {e : Nat × List Nat} (h : e ∈ composites) :
    e.1 ∉ lowMarks ∧ ∃ a b, e.2 = [a, b] ∧ 0x3C ≤ a ∧ 0x300 ≤ b := by
  have he := List.all_eq_true.mp lowBlocks_checked.2.2.2.2.1 e h
  obtain ⟨hmark, hparts⟩ := Bool.and_eq_true_iff.mp he
  refine ⟨by simpa [testBit_codeMask] using hmark, ?_⟩
  split at hparts
  next a b heq => exact ⟨a, b, heq, of_decide_eq_true hparts⟩
  next => cases hparts

theorem decomposedOnly_parts {e : Nat × List Nat} (h : e ∈ decomposedOnly) :
    0x300 ≤ e.1 ∧ e.2 ≠ [] ∧ e.1 ∉ lowMarks := by
  simpa [testBit_codeMask, and_assoc] using List.all_eq_true.mp lowBlocks_checked.2.2.2.2.2 e h

/-- No pair has a character of the first blocks at its end, and none a space, a digit or
a bracket in it. -/
theorem composite?_eq_none {a b : Nat} (h : a < 0x3C ∨ b < 0x300) : composite? a b = none := by
  rw [Option.eq_none_iff_forall_ne_some]
  intro c hc
  obtain ⟨-, x, y, hparts, hx, hy⟩ := composites_parts (mem_composites hc)
  simp only [List.cons.injEq, and_true] at hparts
  omega

theorem pair?_eq_composite? {a b : Nat} (h : b < 0x1161) : pair? a b = composite? a b := by
  have hsyllable : syllable? a b = none := by
    simp only [syllable?, Bool.and_eq_true, decide_eq_true_eq, beq_iff_eq]
    rw [if_neg (by omega), if_neg (by omega)]
  rw [pair?, hsyllable]
  rfl

theorem pair?_of_low {a b : Nat} (h : b < 0x300) : pair? a b = none := by
  rw [pair?_eq_composite? (by omega), composite?_eq_none (.inr h)]

theorem mem_lowMarks_low {b : Nat} (h : b ∈ lowMarks) : 0x300 ≤ b ∧ b < 0x330 := by
  revert b
  decide

/-- The marks stand for themselves. -/
theorem atomic_of_mem_lowMarks {b : Nat} (h : b ∈ lowMarks) : Atomic b := by
  have hlow := mem_lowMarks_low h
  constructor
  · simp only [syllableParts?, Bool.and_eq_true, decide_eq_true_eq]
    rw [if_neg (by omega)]
  · rw [Option.eq_none_iff_forall_ne_some]
    intro parts hparts
    rcases List.mem_append.mp (mem_of_decomposition? hparts) with hmem | hmem
    · exact (composites_parts hmem).1 h
    · exact (decomposedOnly_parts hmem).2.2 h

theorem atomic_of_low {n : Nat} (hlow : n < 0x300) (h : n ∉ lowComposites.map (·.1)) :
    Atomic n := by
  constructor
  · simp only [syllableParts?, Bool.and_eq_true, decide_eq_true_eq]
    rw [if_neg (by omega)]
  · rw [Option.eq_none_iff_forall_ne_some]
    intro parts hparts
    rcases List.mem_append.mp (mem_of_decomposition? hparts) with hmem | hmem
    · exact h (List.mem_map.mpr ⟨_, mem_lowComposites hmem hlow, rfl⟩)
    · exact Nat.not_le.mpr hlow (decomposedOnly_parts hmem).1

/-- Where no pair occurs twice, the first entry with a pair is the only one. -/
theorem find?_of_pairsDiffer {es : List (Nat × List Nat)} {seen : Nat}
    (h : pairsDiffer seen es = true) {e : Nat × List Nat} (he : e ∈ es) :
    es.find? (·.2 == e.2) = some e ∧
      seen.testBit (pairCode (e.2.headD 0) (e.2.getLastD 0)) = false := by
  induction es generalizing seen with
  | nil => exact absurd he List.not_mem_nil
  | cons d es ih =>
    rw [pairsDiffer] at h
    obtain ⟨hseen, hrest⟩ := Bool.and_eq_true_iff.mp h
    rcases List.mem_cons.mp he with rfl | he
    · exact ⟨by simp, by simpa using hseen⟩
    · obtain ⟨hfind, hbit⟩ := ih hrest he
      rw [Nat.testBit_or, Nat.one_shiftLeft, Nat.testBit_two_pow, Bool.or_eq_false_iff,
        decide_eq_false_iff_not] at hbit
      have hne : (d.2 == e.2) = false := by
        rw [beq_eq_false_iff_ne]
        intro heq
        exact hbit.1 (by rw [heq])
      exact ⟨by rw [List.find?_cons, hne]; exact hfind, hbit.2⟩

/-- What a character of the first blocks stands for. -/
theorem parts_of_mem_lowComposites {e : Nat × List Nat} (h : e ∈ lowComposites) : ∃ a b,
    e.2 = [a, b] ∧ a < 0x300 ∧ b ∈ lowMarks ∧ composite? a b = some e.1 ∧
      (a < 0xC0 ∨ b ∈ lastMarks ∧ a ∉ twiceMarked) := by
  have he := List.all_eq_true.mp lowBlocks_checked.2.2.1 e h
  rw [addsMark] at he
  split at he
  next a b heq =>
    simp only [Bool.and_eq_true, Bool.or_eq_true, decide_eq_true_eq, testBit_codeMask,
      Bool.not_eq_true', decide_eq_false_iff_not] at he
    obtain ⟨⟨ha, hb⟩, hmarks⟩ := he
    refine ⟨a, b, heq, ha, hb, ?_, hmarks⟩
    have hfind := (find?_of_pairsDiffer lowBlocks_checked.2.2.2.1 h).1
    have hsplit : lowComposites ++ composites.dropWhile (·.1 < 0x300) = composites :=
      List.takeWhile_append_dropWhile
    rw [composite?, ← hsplit, List.find?_append, ← heq, hfind]
    rfl
  next => cases he

/-- A character of the first blocks is taken apart into one of them and marks, and
composed of these again. -/
structure Recomposes (n first : Nat) (marks : List Nat) : Prop where
  parts : decomposeCode 4 n = first :: marks
  low : first < 0x300
  mem : ∀ m ∈ marks, m ∈ lowMarks
  run : IsRun marks
  back : ∀ ns, composeFrom first [] (marks ++ ns) = composeFrom n [] ns

theorem recomposes_of_atomic {n : Nat} (hlow : n < 0x300) (h : Atomic n) : Recomposes n n [] :=
  ⟨decomposeCode_of_atomic h 4, hlow, by simp, isRun_nil, fun _ => rfl⟩

theorem combiningClass_of_mem_lowMarks {b : Nat} (h : b ∈ lowMarks) :
    combiningClass b ≠ 0 ∧ combiningClass b ≤ 230 :=
  of_decide_eq_true (List.all_eq_true.mp lowBlocks_checked.1 b h)

theorem Recomposes.concat {a b n first : Nat} {marks : List Nat} (h : Recomposes a first marks)
    (hb : b ∈ lowMarks) (hpair : composite? a b = some n)
    (hlast : ∀ m ∈ marks, combiningClass m ≤ combiningClass b) :
    Recomposes n first (marks ++ [b]) := by
  have hpair' : pair? a b = some n := by
    rw [pair?_eq_composite? (by have := mem_lowMarks_low hb; omega), hpair]
  refine ⟨?_, h.low, ?_, h.run.concat (combiningClass_of_mem_lowMarks hb).1 hlast, fun ns => ?_⟩
  · rw [decomposeCode_pair hpair', h.parts, decomposeCode_of_atomic (atomic_of_mem_lowMarks hb)]
    rfl
  · simpa [or_imp, forall_and] using ⟨h.mem, hb⟩
  · rw [List.append_assoc, h.back, List.singleton_append, composeFrom_cons, blocks,
      List.getLast?_nil]
    simp [hpair']

theorem exists_recomposes {n : Nat} (h : n < 0x300) : ∃ first marks, Recomposes n first marks := by
  by_cases hn : n ∈ lowComposites.map (·.1)
  swap
  · exact ⟨n, [], recomposes_of_atomic h (atomic_of_low h hn)⟩
  obtain ⟨e, he, rfl⟩ := List.mem_map.mp hn
  obtain ⟨a, b, -, ha, hb, hpair, hmarks⟩ := parts_of_mem_lowComposites he
  by_cases hatomic : a ∈ lowComposites.map (·.1)
  swap
  · have hone := recomposes_of_atomic ha (atomic_of_low ha hatomic)
    exact ⟨a, [b], hone.concat hb hpair (by simp)⟩
  -- Its first part stands for one without a mark, and one mark that may come before.
  obtain ⟨d, hd, rfl⟩ := List.mem_map.mp hatomic
  have hhigh := (decompositions_other d (List.mem_append_left _
    ((List.takeWhile_sublist _).subset hd))).1
  obtain ⟨hb', honce⟩ := hmarks.resolve_left (by omega)
  obtain ⟨x, y, hparts, hx, hy, hpair', -⟩ := parts_of_mem_lowComposites hd
  have hplain : x < 0xC0 := by
    refine Nat.lt_of_not_le fun hle => honce (List.mem_map.mpr ⟨d, ?_, rfl⟩)
    exact List.mem_filter.mpr ⟨hd, by simpa [hparts] using hle⟩
  have hxa : Atomic x := by
    refine atomic_of_low hx fun hmem => ?_
    obtain ⟨f, hf, rfl⟩ := List.mem_map.mp hmem
    have := (decompositions_other f (List.mem_append_left _
      ((List.takeWhile_sublist _).subset hf))).1
    omega
  refine ⟨x, [y, b], ((recomposes_of_atomic hx hxa).concat hy hpair' (by simp)).concat hb hpair ?_⟩
  have hclass : combiningClass b = 230 := by
    simpa using List.all_eq_true.mp lowBlocks_checked.2.1 b hb'
  simpa [hclass] using (combiningClass_of_mem_lowMarks hy).2

theorem head?_decompose_of_low {ns : List Nat} (h : ∀ n ∈ ns, n < 0x300) :
    ∀ m ∈ (decompose ns).head?, m < 0x300 := by
  cases ns with
  | nil => simp [decompose]
  | cons n ns =>
    obtain ⟨first, marks, hn⟩ := exists_recomposes (h n List.mem_cons_self)
    rw [decompose_cons, hn.parts]
    simpa using hn.low

theorem ordered_decompose_of_low {ns : List Nat} (h : ∀ n ∈ ns, n < 0x300) :
    Ordered (decompose ns) := by
  induction ns with
  | nil => exact List.isChain_nil
  | cons n ns ih =>
    rw [List.forall_mem_cons] at h
    obtain ⟨first, marks, hn⟩ := exists_recomposes h.1
    rw [decompose_cons, hn.parts]
    refine List.isChain_append.mpr ⟨List.isChain_cons.mpr ⟨fun m _ => .inr ?_, hn.run.ordered⟩,
      ih h.2, fun _ _ m hm => .inl ?_⟩
    · rw [combiningClass_of_low hn.low]
      exact Nat.zero_le _
    · exact combiningClass_of_low (head?_decompose_of_low h.2 m hm)

theorem composeFrom_decompose_of_low {n : Nat} {ns : List Nat} (h : ∀ m ∈ ns, m < 0x300) :
    composeFrom n [] (decompose ns) = n :: ns := by
  induction ns generalizing n with
  | nil => rfl
  | cons m ns ih =>
    rw [List.forall_mem_cons] at h
    obtain ⟨first, marks, hm⟩ := exists_recomposes h.1
    rw [decompose_cons, hm.parts, List.cons_append, composeFrom_cons, pair?_of_low hm.low]
    simp only [ite_self, combiningClass_of_low hm.low, beq_self_eq_true, if_true,
      List.singleton_append]
    rw [hm.back, ih h.2]

/-- **Texts of the first blocks are composed already.** -/
theorem compose_decomposed_of_low {ns : List Nat} (h : ∀ n ∈ ns, n < 0x300) :
    compose (decomposed ns) = ns := by
  rw [decomposed, reorder_of_ordered (ordered_decompose_of_low h)]
  cases ns with
  | nil => rfl
  | cons n ns =>
    rw [List.forall_mem_cons] at h
    obtain ⟨first, marks, hn⟩ := exists_recomposes h.1
    rw [decompose_cons, hn.parts, List.cons_append, compose,
      if_pos (by simp [combiningClass_of_low hn.low]), hn.back, composeFrom_decompose_of_low h.2]

/-! ### Normal forms -/

/-- The code points of a text. -/
def codes (s : String) : List Nat := s.toList.map Char.toNat

theorem codes_append (s t : String) : codes (s ++ t) = codes s ++ codes t := by
  simp [codes]

theorem codes_injective : Function.Injective codes := by
  intro s t h
  exact String.toList_inj.mp (List.map_injective_iff.mpr (fun _ _ => Char.toNat_inj.mp) h)

theorem codes_normalize (s : String) : codes (normalize s) = compose (decomposed (codes s)) := by
  rw [normalize]
  split
  next hlow =>
    refine (compose_decomposed_of_low fun n hn => ?_).symm
    obtain ⟨c, hc, rfl⟩ := List.mem_map.mp hn
    exact of_decide_eq_true (List.all_eq_true.mp hlow c hc)
  next =>
    refine map_toNat_ofList (compose_valid fun n hn => ?_)
    have hmem := ((mem_reorderFrom _ _ n).mp hn).resolve_left List.not_mem_nil
    exact decompose_valid (by simpa using fun c _ => c.valid) n hmem

theorem decomposed_codes_normalize (s : String) :
    decomposed (codes (normalize s)) = decomposed (codes s) := by
  rw [codes_normalize, decomposed_compose_decomposed]

/-- **When texts have one normal form.** -/
theorem normalize_eq_normalize_iff {s t : String} :
    normalize s = normalize t ↔ decomposed (codes s) = decomposed (codes t) := by
  constructor
  · intro h
    rw [← decomposed_codes_normalize s, h, decomposed_codes_normalize]
  · intro h
    apply codes_injective
    rw [codes_normalize, codes_normalize, h]

/-- **The normal form of a joined text depends only on those of its parts.** -/
theorem normalize_append_congr {s s' t t' : String} (hs : normalize s = normalize s')
    (ht : normalize t = normalize t') : normalize (s ++ t) = normalize (s' ++ t') := by
  rw [normalize_eq_normalize_iff] at hs ht ⊢
  rw [codes_append, codes_append, decomposed_append, decomposed_append, hs, ht]

/-! ### Characters that are never composed -/

theorem decompose_around {n : Nat} (hn : n < 0x3C) (xs ys : List Nat) :
    decompose (xs ++ n :: ys) = decompose xs ++ n :: decompose ys := by
  have hatomic : Atomic n := by
    refine atomic_of_low (by omega) fun hmem => ?_
    obtain ⟨e, he, rfl⟩ := List.mem_map.mp hmem
    have hhigh := (decompositions_other e (List.mem_append_left _
      ((List.takeWhile_sublist _).subset he))).1
    omega
  rw [decompose_append, decompose_cons, decomposeCode_of_atomic hatomic]
  rfl

/-- No mark is moved across a starter. -/
theorem reorderFrom_around {n : Nat} (hn : combiningClass n = 0) (run xs ys : List Nat) :
    reorderFrom run (xs ++ n :: ys) = reorderFrom run xs ++ n :: reorder ys := by
  induction xs generalizing run with
  | nil => simp [reorderFrom, reorder, hn]
  | cons x xs ih =>
    rw [List.cons_append, reorderFrom, reorderFrom]
    split
    · rw [ih, List.append_assoc, List.cons_append]
    · exact ih _

theorem composeFrom_append {n : Nat} (hn : n < 0x300) (starter : Nat) (skipped xs ys : List Nat) :
    composeFrom starter skipped (xs ++ n :: ys) =
      composeFrom starter skipped xs ++ composeFrom n [] ys := by
  induction xs generalizing starter skipped with
  | nil =>
    rw [List.nil_append, composeFrom_cons, pair?_of_low hn]
    simp [combiningClass_of_low hn, composeFrom]
  | cons x xs ih =>
    rw [List.cons_append, composeFrom_cons, composeFrom_cons]
    split
    · exact ih ..
    · split
      · rw [ih, List.append_assoc]
      · exact ih ..

theorem pair?_of_plain {a : Nat} (h : a < 0x3C) (b : Nat) : pair? a b = none := by
  have hsyllable : syllable? a b = none := by
    simp only [syllable?, Bool.and_eq_true, decide_eq_true_eq, beq_iff_eq]
    rw [if_neg (by omega), if_neg (by omega)]
  rw [pair?, hsyllable]
  exact composite?_eq_none (.inl h)

theorem composeFrom_of_plain {n : Nat} (hn : n < 0x3C) (skipped ns : List Nat) :
    composeFrom n skipped ns = n :: skipped ++ compose ns := by
  induction ns generalizing skipped with
  | nil => simp [composeFrom, compose]
  | cons m ns ih =>
    rw [composeFrom_cons, pair?_of_plain hn, compose]
    simp only [ite_self]
    split
    · rfl
    · rw [ih]
      simp

/-- A space, a digit or a bracket is not composed with what is before or after it. -/
theorem compose_around {n : Nat} (hn : n < 0x3C) (xs ys : List Nat) :
    compose (xs ++ n :: ys) = compose xs ++ n :: compose ys := by
  have hstarter : (combiningClass n == 0) = true := by
    rw [combiningClass_of_low (by omega)]
    rfl
  induction xs with
  | nil => exact (if_pos hstarter).trans (composeFrom_of_plain hn [] ys)
  | cons x xs ih =>
    rw [List.cons_append, compose, compose]
    split
    · rw [composeFrom_append (by omega), composeFrom_of_plain hn]
      rfl
    · rw [ih, List.cons_append]

/-- **Around a space, a digit or a bracket the parts of a text have normal forms of their
own.** -/
theorem normalize_around {c : Char} (hc : c.toNat < 0x3C) (s t : String) :
    normalize (s ++ String.singleton c ++ t) =
      normalize s ++ String.singleton c ++ normalize t := by
  apply codes_injective
  have hsingle : codes (String.singleton c) = [c.toNat] := by simp [codes]
  have hstarter := combiningClass_of_low (show c.toNat < 0x300 by omega)
  simp only [codes_append, codes_normalize, hsingle, List.append_assoc, List.singleton_append]
  rw [decomposed, decompose_around hc, reorder, reorderFrom_around hstarter, compose_around hc]
  rfl

/-! ### Occurrences that are taken away -/

theorem decomposeCode_ne_nil (depth n : Nat) : decomposeCode depth n ≠ [] := by
  induction depth generalizing n with
  | zero => simp [decomposeCode]
  | succ depth ih =>
    rw [decomposeCode]
    cases hs : syllableParts? n with
    | some parts =>
      rw [syllableParts?, Option.ite_none_right_eq_some] at hs
      obtain rfl := Option.some.inj hs.2
      dsimp only
      split <;> simp
    | none =>
      cases hd : decomposition? n with
      | none => simp
      | some parts =>
        have hne : parts ≠ [] := by
          rcases List.mem_append.mp (mem_of_decomposition? hd) with hmem | hmem
          · obtain ⟨-, a, b, hparts, -⟩ := composites_parts hmem
            simp [show parts = [a, b] from hparts]
          · exact (decomposedOnly_parts hmem).2.1
        obtain ⟨p, hp⟩ := List.exists_mem_of_ne_nil _ hne
        simpa using ⟨p, hp, ih p⟩

/-- How many code points characters are taken apart into. -/
def spread (cs : List Char) : Nat := (decompose (cs.map Char.toNat)).length

theorem spread_cons (c : Char) (cs : List Char) :
    spread (c :: cs) = (decomposeCode 4 c.toNat).length + spread cs := by
  rw [spread, spread, List.map_cons, decompose_cons, List.length_append]

theorem spread_lt_spread_cons (c : Char) (cs : List Char) : spread cs < spread (c :: cs) := by
  have hpos := List.length_pos_iff.mpr (decomposeCode_ne_nil 4 c.toNat)
  rw [spread_cons]
  omega

theorem spread_replaceFrom_le (old : List Char) (skip : Nat) (cs : List Char) :
    spread (replaceFrom old [] skip cs) ≤ spread cs := by
  induction cs generalizing skip with
  | nil => cases skip <;> exact Nat.le_refl _
  | cons c cs ih =>
    have hlt := spread_lt_spread_cons c cs
    cases skip with
    | succ skip => exact (ih skip).trans hlt.le
    | zero =>
      rw [replaceFrom]
      split
      · exact (ih _).trans hlt.le
      · rw [spread_cons, spread_cons]
        exact Nat.add_le_add_left (ih 0) _

/-- Each occurrence that is taken away leaves fewer code points. -/
theorem spread_replaceFrom_lt {old : List Char} (hold : old ≠ []) {cs : List Char}
    (h : old <:+: cs) : spread (replaceFrom old [] 0 cs) < spread cs := by
  induction cs with
  | nil => exact absurd (List.infix_nil.mp h) hold
  | cons c cs ih =>
    rw [replaceFrom]
    split
    · exact (spread_replaceFrom_le ..).trans_lt (spread_lt_spread_cons c cs)
    next hnot =>
      rw [spread_cons, spread_cons]
      refine Nat.add_lt_add_left (ih ?_) _
      rcases List.infix_cons_iff.mp h with hprefix | hinfix
      · exact absurd (List.isPrefixOf_iff_prefix.mpr hprefix) hnot
      · exact hinfix

theorem replaceFrom_of_no_occurrence {old : List Char} (new : List Char) {cs : List Char}
    (h : ¬old <:+: cs) : replaceFrom old new 0 cs = cs := by
  induction cs with
  | nil => rfl
  | cons c cs ih =>
    rw [List.infix_cons_iff, not_or] at h
    rw [replaceFrom, if_neg (fun hprefix => h.1 (List.isPrefixOf_iff_prefix.mp hprefix)), ih h.2]

/-- **Taking occurrences of a text away shows in the normal form**: it stays as it is
exactly if there are none. -/
theorem normalize_replaceAll_eq_iff {old : String} (hold : old ≠ "") (s : String) :
    normalize (replaceAll old "" s) = normalize s ↔ ¬old.toList <:+: s.toList := by
  have hnil : old.toList ≠ [] := by simpa using hold
  have hreplaced : replaceAll old "" s = String.ofList (replaceFrom old.toList [] 0 s.toList) :=
    if_neg (by simpa using hold)
  rw [hreplaced]
  constructor
  · intro h hinfix
    have hlength := congrArg List.length (normalize_eq_normalize_iff.mp h)
    rw [length_decomposed, length_decomposed, codes, String.toList_ofList] at hlength
    exact Nat.ne_of_lt (spread_replaceFrom_lt hnil hinfix) hlength
  · intro h
    rw [replaceFrom_of_no_occurrence [] h, String.ofList_toList]

end SolidityCanvas.Text
