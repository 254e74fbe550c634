/-
How the bodies of a contract are laid out.

The lines between the one that opens a contract and the one that closes it are
those of the rendered bodies, without blanks at their ends and without blank
lines around a body, each moved in by four spaces.  Blank lines are added only
between two bodies (`gap`):

* the text is made of the lines of the bodies and the gaps between them
  (`source_ofRendered`, `separated`);
* no other line is lost or added (`filter_separated`, `flatMap_placed`), and a
  region neither begins nor ends with a blank line (`isTidy_separated`);
* `layout_of_emit` says so of the source of every document that is written.
-/
import Mathlib.Algebra.GroupWithZero.Nat
import Mathlib.Data.List.DropRight
import SolidityCanvas.Contract.Document
import SolidityCanvas.Proofs.Compiler.Memory
import SolidityCanvas.Proofs.Text.Words

namespace SolidityCanvas

/-! ### Texts and their lines -/

namespace Text

theorem splitOnChar_eq_splitOn (sep : Char) (cs : List Char) :
    splitOnChar sep cs = cs.splitOn sep := by
  induction cs with
  | nil => rfl
  | cons c cs ih =>
    rw [List.splitOn_cons_eq_if_modifyHead, splitOnChar, ih]
    refine if_congr Iff.rfl rfl ?_
    cases hpieces : cs.splitOn sep with
    | nil => exact absurd hpieces (List.splitOn_ne_nil sep cs)
    | cons piece rest => rfl

theorem notMem_of_mem_splitOnChar {sep : Char} : ∀ {cs piece : List Char},
    piece ∈ splitOnChar sep cs → sep ∉ piece := by
  intro cs
  induction cs with
  | nil => simp [splitOnChar]
  | cons c cs ih =>
    intro piece h
    rw [splitOnChar] at h
    split at h
    · rcases List.mem_cons.mp h with rfl | h
      · exact List.not_mem_nil
      · exact ih h
    next hc =>
      have hne : sep ≠ c := fun heq => hc (by simp [heq])
      split at h
      · rw [List.mem_singleton.mp h]
        simp [hne]
      next first rest hpieces =>
        rw [hpieces] at ih
        rcases List.mem_cons.mp h with rfl | h
        · simpa [hne] using ih List.mem_cons_self
        · exact ih (List.mem_cons_of_mem _ h)

theorem notMem_of_mem_lines {s l : String} (h : l ∈ lines s) : '\n' ∉ l.toList := by
  obtain ⟨piece, hpiece, rfl⟩ := List.mem_map.mp h
  rw [String.toList_ofList]
  exact notMem_of_mem_splitOnChar hpiece

/-- The lines of a text that is put together from lines. -/
theorem lines_intercalate {ls : List String} (hne : ls ≠ []) (h : ∀ l ∈ ls, '\n' ∉ l.toList) :
    lines ("\n".intercalate ls) = ls := by
  have hend : "\n".toList = ['\n'] := rfl
  have hlines : ∀ cs ∈ ls.map String.toList, '\n' ∉ cs := by simpa using h
  rw [lines, splitOnChar_eq_splitOn, String.toList_intercalate, hend,
    List.splitOn_intercalate _ hlines (by simpa using hne), List.map_map]
  simp [Function.comp_def]

theorem one_lt_length_splitOnChar {sep : Char} (cs : List Char) :
    1 < (splitOnChar sep cs).length ↔ sep ∈ cs := by
  induction cs with
  | nil => simp [splitOnChar]
  | cons c cs ih =>
    have hpos : 0 < (splitOnChar sep cs).length := by
      rw [splitOnChar_eq_splitOn]
      exact List.length_pos_iff.mpr (List.splitOn_ne_nil sep cs)
    rw [splitOnChar]
    split
    next hc =>
      rw [List.length_cons, beq_iff_eq.mp hc]
      simpa using hpos
    next hc =>
      have hne : sep ≠ c := fun heq => hc (by simp [heq])
      rw [List.mem_cons, or_iff_right hne, ← ih]
      split
      next hnil => simp [hnil] at hpos
      next hcons => rw [hcons, List.length_cons, List.length_cons]

end Text

namespace Document

open Text

theorem isLong_iff {body : String} : isLong body = true ↔ 1 < (lines body).length := by
  rw [isLong, lines, List.length_map, one_lt_length_splitOnChar, List.contains_iff_mem]

/-- Whether a line has nothing but spaces, tabs and carriage returns. -/
def isBlankLine (l : String) : Bool := l.toList.all isTrailing

/-- Lines, each with its end. -/
def joinLines (ls : List String) : String := String.join (ls.map (· ++ "\n"))

theorem joinLines_append (ls ms : List String) :
    joinLines (ls ++ ms) = joinLines ls ++ joinLines ms := by
  rw [joinLines, List.map_append, String.join_append]
  rfl

/-- Lines of which none ends in a space, a tab or a carriage return, and of which
neither the first nor the last is blank. -/
structure IsTidy (ls : List String) : Prop where
  trimmed : ∀ l ∈ ls, ∀ c ∈ l.toList.getLast?, isTrailing c = false
  head : ∀ l ∈ ls.head?, isBlankLine l = false
  last : ∀ l ∈ ls.getLast?, isBlankLine l = false

/-! ### Bodies -/

/-- The lines of a body without the blanks at their ends. -/
def trimmedLines (body : String) : List String := (lines body).map (dropTrailing isTrailing)

/-- What a body has to say: its lines that are not blank, without the blanks at
their ends. -/
def content (body : String) : List String := (trimmedLines body).filter (!isBlankLine ·)

/-- The lines of a body that are kept. -/
def keptLines (body : String) : List String :=
  ((trimmedLines body).dropWhile (·.isEmpty)).rdropWhile (·.isEmpty)

theorem normalize_eq (body : String) : normalize body = "\n".intercalate (keptLines body) := rfl

theorem toList_dropTrailing (l : String) :
    (dropTrailing isTrailing l).toList = l.toList.rdropWhile isTrailing := String.toList_ofList

theorem dropTrailing_of_trimmed {l : String}
    (h : ∀ c ∈ l.toList.getLast?, isTrailing c = false) : dropTrailing isTrailing l = l := by
  rw [← String.toList_inj, toList_dropTrailing, List.rdropWhile_eq_self_iff]
  intro hne
  simpa using h _ (List.getLast?_eq_some_getLast hne)

theorem trimmed_dropTrailing (l : String) :
    ∀ c ∈ (dropTrailing isTrailing l).toList.getLast?, isTrailing c = false := by
  intro c hc
  rw [toList_dropTrailing] at hc
  obtain ⟨hne, rfl⟩ := List.mem_getLast?_eq_getLast hc
  simpa using List.rdropWhile_last_not isTrailing l.toList hne

/-- A line without blanks at its end is blank only if it is empty. -/
theorem isBlankLine_eq_isEmpty {l : String}
    (h : ∀ c ∈ l.toList.getLast?, isTrailing c = false) : isBlankLine l = l.isEmpty := by
  rw [Bool.eq_iff_iff, isBlankLine, List.all_eq_true, String.isEmpty_iff,
    ← String.toList_eq_nil_iff]
  constructor
  · intro hall
    by_contra hne
    have hlast := h _ (List.getLast?_eq_some_getLast hne)
    rw [hall _ (List.getLast_mem hne)] at hlast
    cases hlast
  · intro hnil
    simp [hnil]

theorem trimmed_of_mem_keptLines {body l : String} (h : l ∈ keptLines body) :
    l ∈ trimmedLines body :=
  (List.dropWhile_suffix _).subset ((List.rdropWhile_prefix _ _).subset h)

theorem isTidy_keptLines (body : String) : IsTidy (keptLines body) := by
  have htrimmed : ∀ l ∈ trimmedLines body, ∀ c ∈ l.toList.getLast?, isTrailing c = false := by
    intro l hl
    obtain ⟨m, -, rfl⟩ := List.mem_map.mp hl
    exact trimmed_dropTrailing m
  refine ⟨fun l hl => htrimmed l (trimmed_of_mem_keptLines hl), fun l hl => ?_, fun l hl => ?_⟩
  · rw [isBlankLine_eq_isEmpty (htrimmed l (trimmed_of_mem_keptLines (List.mem_of_mem_head? hl)))]
    obtain ⟨rest, hrest⟩ := List.rdropWhile_prefix (·.isEmpty)
      ((trimmedLines body).dropWhile (·.isEmpty))
    have hhead := List.head?_dropWhile_not (·.isEmpty) (trimmedLines body)
    rw [keptLines] at hl
    rw [← hrest, List.head?_append, hl] at hhead
    exact hhead
  · rw [isBlankLine_eq_isEmpty (htrimmed l (trimmed_of_mem_keptLines (List.mem_of_getLast? hl)))]
    rw [keptLines] at hl
    obtain ⟨hne, rfl⟩ := List.mem_getLast?_eq_getLast hl
    exact Bool.eq_false_iff.mpr (List.rdropWhile_last_not _ _ hne)

/-- A body is empty if no line is kept. -/
theorem keptLines_ne_nil {body : String} (h : (normalize body).isEmpty = false) :
    keptLines body ≠ [] := by
  intro hnil
  rw [normalize_eq, hnil] at h
  cases h

theorem keptLines_eq_nil {body : String} (h : (normalize body).isEmpty = true) :
    keptLines body = [] := by
  by_contra hne
  obtain ⟨l, rest, hkept⟩ := List.exists_cons_of_ne_nil hne
  have hl := (isTidy_keptLines body).head l (by rw [hkept]; rfl)
  rw [normalize_eq, hkept, String.isEmpty_iff] at h
  have hnil : l.toList = [] := by
    cases rest with
    | nil => rw [String.toList_eq_nil_iff, ← h, String.intercalate_singleton]
    | cons m rest =>
      rw [String.intercalate_cons_cons, String.append_eq_empty_iff, String.append_eq_empty_iff] at h
      rw [String.toList_eq_nil_iff, h.1.1]
  rw [isBlankLine, hnil] at hl
  cases hl

theorem lines_normalize {body : String} (h : (normalize body).isEmpty = false) :
    lines (normalize body) = keptLines body := by
  refine lines_intercalate (keptLines_ne_nil h) fun l hl hmem => ?_
  obtain ⟨m, hm, rfl⟩ := List.mem_map.mp (trimmed_of_mem_keptLines hl)
  rw [toList_dropTrailing] at hmem
  exact notMem_of_mem_lines hm ((List.rdropWhile_prefix _ _).subset hmem)

theorem isTidy_lines_normalize {body : String} (h : (normalize body).isEmpty = false) :
    IsTidy (lines (normalize body)) := by
  rw [lines_normalize h]
  exact isTidy_keptLines body

theorem filter_dropWhile {α : Type} {p q : α → Bool} (hpq : ∀ a, p a = true → q a = false)
    (l : List α) : (l.dropWhile p).filter q = l.filter q := by
  have htaken : (l.takeWhile p).filter q = [] :=
    List.filter_eq_nil_iff.mpr fun a ha => by simp [hpq a (List.mem_takeWhile_imp ha)]
  have hl : l.takeWhile p ++ l.dropWhile p = l := List.takeWhile_append_dropWhile
  rw [← congrArg (List.filter q) hl, List.filter_append, htaken, List.nil_append]

theorem filter_rdropWhile {α : Type} {p q : α → Bool} (hpq : ∀ a, p a = true → q a = false)
    (l : List α) : (l.rdropWhile p).filter q = l.filter q := by
  rw [List.rdropWhile, List.filter_reverse, filter_dropWhile hpq, List.filter_reverse,
    List.reverse_reverse]

theorem filter_keptLines (body : String) :
    (keptLines body).filter (!isBlankLine ·) = content body := by
  have hempty : ∀ l : String, l.isEmpty = true → (!isBlankLine l) = false := by
    intro l hl
    rw [String.isEmpty_iff.mp hl]
    rfl
  rw [keptLines, filter_rdropWhile hempty, filter_dropWhile hempty, content]

/-- A body keeps what it has to say. -/
theorem filter_lines_normalize (body : String) :
    (lines (normalize body)).filter (!isBlankLine ·) = content body := by
  cases h : (normalize body).isEmpty with
  | false => rw [lines_normalize h, filter_keptLines]
  | true =>
    rw [← filter_keptLines, keptLines_eq_nil h, String.isEmpty_iff.mp h]
    rfl

/-- Of a body in order all lines are kept. -/
theorem IsTidy.keptLines_eq {body : String} (h : IsTidy (lines body)) :
    keptLines body = lines body := by
  have htrimmed : trimmedLines body = lines body :=
    (List.map_congr_left fun l hl => dropTrailing_of_trimmed (h.trimmed l hl)).trans (List.map_id _)
  have hempty : ∀ l : String, isBlankLine l = false → l.isEmpty = false := by
    intro l hl
    by_contra hne
    rw [Bool.not_eq_false, String.isEmpty_iff] at hne
    rw [hne] at hl
    cases hl
  rw [keptLines, htrimmed, dropWhile_eq_self fun l hl => hempty l (h.head l hl),
    List.rdropWhile_eq_self_iff]
  intro hne
  rw [hempty _ (h.last _ (List.getLast?_eq_some_getLast hne))]
  exact Bool.false_ne_true

/-- **Putting a body in order again changes nothing.** -/
theorem normalize_normalize (body : String) : normalize (normalize body) = normalize body := by
  cases h : (normalize body).isEmpty with
  | true =>
    rw [String.isEmpty_iff.mp h]
    rfl
  | false =>
    rw [normalize_eq (normalize body), (isTidy_lines_normalize h).keptLines_eq, lines_normalize h,
      normalize_eq]

/-! ### Regions -/

/-- Lines as they stand in a contract: each that is not empty is moved in. -/
def moved (ls : List String) : List String :=
  ls.map fun l => if l.isEmpty then "" else "    " ++ l

theorem indented_eq (body : String) : indented body = joinLines (moved (lines body)) := by
  rw [indented, joinLines, moved, List.map_map]
  rfl

theorem isBlankLine_moved (l : String) :
    isBlankLine (if l.isEmpty then "" else "    " ++ l) = isBlankLine l := by
  have hspaces : isBlankLine "    " = true := by decide
  split
  next h => rw [String.isEmpty_iff.mp h]
  next h => rw [isBlankLine, String.toList_append, List.all_append, ← isBlankLine, hspaces,
      Bool.true_and, ← isBlankLine]

theorem filter_moved (ls : List String) : (moved ls).filter (!isBlankLine ·) =
    (ls.filter (!isBlankLine ·)).map ("    " ++ ·) := by
  rw [moved, List.filter_map]
  have hblank : ((!isBlankLine ·) ∘ fun l : String => if l.isEmpty then "" else "    " ++ l) =
      (!isBlankLine ·) := by
    funext l
    rw [Function.comp_apply, isBlankLine_moved]
  rw [hblank]
  refine List.map_congr_left fun l hl => if_neg fun hempty => ?_
  rw [String.isEmpty_iff.mp hempty] at hl
  simp [isBlankLine] at hl

theorem IsTidy.moved {ls : List String} (h : IsTidy ls) : IsTidy (moved ls) := by
  refine ⟨fun l hl => ?_, fun l hl => ?_, fun l hl => ?_⟩
  · obtain ⟨m, hm, rfl⟩ := List.mem_map.mp hl
    split
    next => simp
    next hne =>
      have hchars : m.toList ≠ [] := by simpa using hne
      rw [String.toList_append, List.getLast?_append_of_ne_nil _ hchars]
      exact h.trimmed m hm
  · rw [Document.moved, List.head?_map] at hl
    obtain ⟨m, hm, rfl⟩ := Option.map_eq_some_iff.mp hl
    rw [isBlankLine_moved]
    exact h.head m hm
  · rw [Document.moved, List.getLast?_map] at hl
    obtain ⟨m, hm, rfl⟩ := Option.map_eq_some_iff.mp hl
    rw [isBlankLine_moved]
    exact h.last m hm

/-- The blank lines between two bodies, each with the position of its section. -/
def gap (b c : Nat × String) : List String :=
  if b.1 ≠ c.1 ∨ 1 < (lines b.2).length ∨ 1 < (lines c.2).length then [""] else []

/-- The lines of some bodies and the gaps between them. -/
def separated : List (Nat × String) → List String
  | [] => []
  | [b] => moved (lines b.2)
  | b :: c :: rest => moved (lines b.2) ++ gap b c ++ separated (c :: rest)

/-- Between two bodies that follow each other there is nothing but their gap. -/
theorem separated_append (b c : Nat × String) (after : List (Nat × String)) :
    ∀ before : List (Nat × String), separated (before ++ b :: c :: after) =
      separated (before ++ [b]) ++ gap b c ++ separated (c :: after) := by
  intro before
  induction before with
  | nil => rfl
  | cons d before ih =>
    -- What follows the first body begins with `b` if there is nothing before it.
    cases before with
    | nil =>
      change moved (lines d.2) ++ gap d b ++ (moved (lines b.2) ++ gap b c ++ _) = _
      rw [← List.append_assoc, ← List.append_assoc]
      rfl
    | cons e before =>
      change moved (lines d.2) ++ gap d e ++ separated (e :: before ++ b :: c :: after) = _
      rw [ih, ← List.append_assoc, ← List.append_assoc]
      rfl

theorem exists_separated_cons (b : Nat × String) (after : List (Nat × String)) :
    ∃ below, separated (b :: after) = moved (lines b.2) ++ below := by
  cases after with
  | nil => exact ⟨[], (List.append_nil _).symm⟩
  | cons c after => exact ⟨_, List.append_assoc ..⟩

theorem exists_separated_concat (b : Nat × String) (before : List (Nat × String)) :
    ∃ above, separated (before ++ [b]) = above ++ moved (lines b.2) := by
  rcases List.eq_nil_or_concat before with rfl | ⟨init, d, rfl⟩
  · exact ⟨[], rfl⟩
  · rw [List.concat_eq_append, List.append_assoc]
    exact ⟨_, separated_append d b [] init⟩

theorem filter_gap (b c : Nat × String) : (gap b c).filter (!isBlankLine ·) = [] := by
  rw [gap]
  split <;> rfl

/-- Nothing but blank lines is added to the lines of the bodies. -/
theorem filter_separated : ∀ bodies : List (Nat × String),
    (separated bodies).filter (!isBlankLine ·) =
      (bodies.flatMap fun b => (lines b.2).filter (!isBlankLine ·)).map ("    " ++ ·) := by
  intro bodies
  induction bodies with
  | nil => rfl
  | cons b bodies ih =>
    cases bodies with
    | nil => rw [separated, filter_moved, List.flatMap_cons, List.flatMap_nil, List.append_nil]
    | cons c bodies =>
      rw [separated, List.filter_append, List.filter_append, filter_moved, filter_gap, ih,
        List.append_nil, ← List.map_append]
      rfl

theorem separated_ne_nil (b : Nat × String) (bodies : List (Nat × String))
    (h : lines b.2 ≠ []) : separated (b :: bodies) ≠ [] := by
  have hmoved : moved (lines b.2) ≠ [] := by simpa [moved] using h
  cases bodies with
  | nil => exact hmoved
  | cons c bodies => simp [separated, hmoved]

theorem eq_of_mem_gap {b c : Nat × String} {l : String} (h : l ∈ gap b c) : l = "" := by
  rw [gap] at h
  split at h
  · exact List.mem_singleton.mp h
  · exact absurd h List.not_mem_nil

/-- Lines in order and a gap between them are in order. -/
theorem IsTidy.append_gap {ls ms : List String} (hls : IsTidy ls) (hms : IsTidy ms)
    (hne : ls ≠ []) (hne' : ms ≠ []) (b c : Nat × String) : IsTidy (ls ++ gap b c ++ ms) := by
  refine ⟨fun l hl => ?_, fun l hl => hls.head l ?_, fun l hl => hms.last l ?_⟩
  · rcases List.mem_append.mp hl with hl | hl
    · rcases List.mem_append.mp hl with hl | hl
      · exact hls.trimmed l hl
      · simp [eq_of_mem_gap hl]
    · exact hms.trimmed l hl
  · rwa [List.append_assoc, List.head?_append_of_ne_nil _ hne] at hl
  · rwa [List.getLast?_append_of_ne_nil _ hne'] at hl

theorem lines_ne_nil (s : String) : lines s ≠ [] := by
  rw [lines, splitOnChar_eq_splitOn]
  simp

/-- **A region neither begins nor ends with a blank line**, and no line of it ends
in a blank. -/
theorem isTidy_separated : ∀ {bodies : List (Nat × String)},
    (∀ b ∈ bodies, IsTidy (lines b.2)) → IsTidy (separated bodies) := by
  intro bodies
  induction bodies with
  | nil => exact fun _ => ⟨by simp [separated], by simp [separated], by simp [separated]⟩
  | cons b bodies ih =>
    intro h
    obtain ⟨hb, hrest⟩ := List.forall_mem_cons.mp h
    cases bodies with
    | nil => exact hb.moved
    | cons c bodies =>
      have hmoved : moved (lines b.2) ≠ [] := by simpa [moved] using lines_ne_nil b.2
      exact hb.moved.append_gap (ih hrest) hmoved (separated_ne_nil c bodies (lines_ne_nil _)) b c

/-! ### Sections -/

/-- The lines of a section. -/
theorem sectionText_eq (n : Nat) (bodies : List String) :
    sectionText bodies = joinLines (separated (bodies.map (n, ·))) := by
  cases bodies with
  | nil => rfl
  | cons body rest =>
    rw [sectionText]
    induction rest generalizing body with
    | nil =>
      rw [bodiesAfter, indented_eq, String.append_empty]
      rfl
    | cons next rest ih =>
      have hgap : (if isLong next || isLong body then "\n" else "") =
          joinLines (gap (n, body) (n, next)) := by
        have hlong : ((isLong next || isLong body) = true) ↔
            ((n, body).1 ≠ (n, next).1 ∨ 1 < (lines body).length ∨ 1 < (lines next).length) := by
          rw [Bool.or_eq_true, isLong_iff, isLong_iff]
          tauto
        rw [gap, if_congr hlong rfl rfl]
        split <;> rfl
      have hnext := ih next
      rw [List.map_cons] at hnext
      rw [bodiesAfter, hgap, List.map_cons, List.map_cons, separated, joinLines_append,
        joinLines_append, ← hnext, indented_eq body]
      simp only [String.append_assoc]

/-- The lines of some sections, each with its position and none without bodies. -/
theorem intercalate_sectionText : ∀ {groups : List (Nat × List String)},
    (groups.map (·.1)).Nodup → (∀ g ∈ groups, g.2 ≠ []) →
      "\n".intercalate (groups.map fun g => sectionText g.2) =
        joinLines (separated (groups.flatMap fun g => g.2.map (g.1, ·))) := by
  intro groups
  induction groups with
  | nil => exact fun _ _ => rfl
  | cons g groups ih =>
    intro hnd hne
    obtain ⟨hg, hnd⟩ := List.nodup_cons.mp hnd
    obtain ⟨hbodies, hne⟩ := List.forall_mem_cons.mp hne
    cases groups with
    | nil =>
      rw [List.map_cons, List.map_nil, String.intercalate_singleton, sectionText_eq g.1]
      simp
    | cons g' groups =>
      -- The last body of the first section and the first one of the next.
      obtain ⟨init, last, hlast⟩ := (List.eq_nil_or_concat g.2).resolve_left hbodies
      obtain ⟨first, rest, hfirst⟩ := List.exists_cons_of_ne_nil (hne g' List.mem_cons_self)
      have hinit : g.2.map (g.1, ·) = init.map (g.1, ·) ++ [(g.1, last)] := by simp [hlast]
      have hafter : (g' :: groups).flatMap (fun g => g.2.map (g.1, ·)) = (g'.1, first) ::
          (rest.map (g'.1, ·) ++ groups.flatMap fun g => g.2.map (g.1, ·)) := by simp [hfirst]
      have hgap : "\n" = joinLines (gap (g.1, last) (g'.1, first)) := by
        have hsections : g.1 ≠ g'.1 := fun heq => hg (by simp [heq])
        rw [gap, if_pos (.inl hsections)]
        rfl
      have hrest := ih hnd hne
      rw [List.map_cons, hafter] at hrest
      rw [List.map_cons, List.map_cons, String.intercalate_cons_cons, hrest, sectionText_eq g.1,
        hgap, List.flatMap_cons, hafter, hinit, List.append_assoc, List.singleton_append,
        separated_append, joinLines_append, joinLines_append]

/-- The position of the section of each entry, where the sections have `sizes`
entries. -/
def positions (sizes : List Nat) : List Nat :=
  sizes.zipIdx.flatMap fun (size, n) => List.replicate size n

/-- The bodies that are not empty, each with the position of its section. -/
def placed (sizes : List Nat) (rendered : List (Entry × Rendered)) : List (Nat × String) :=
  ((positions sizes).zip (rendered.map fun p => normalize p.2.body)).filter (!·.2.isEmpty)

theorem zip_replicate_append {α : Type} (n : Nat) (rest : List Nat) :
    ∀ (size : Nat) (items : List α), (List.replicate size n ++ rest).zip items =
      (items.take size).map (n, ·) ++ rest.zip (items.drop size) := by
  intro size
  induction size with
  | zero => exact fun _ => rfl
  | succ size ih =>
    intro items
    cases items with
    | nil => simp
    | cons item items =>
      rw [List.replicate_succ, List.cons_append, List.zip_cons_cons, ih]
      rfl

/-- Members of a list that is cut into pieces, each with the position of its piece. -/
theorem zip_positions {α : Type} : ∀ (sizes : List Nat) (n : Nat) (items : List α),
    ((sizes.zipIdx n).flatMap fun (size, n) => List.replicate size n).zip items =
      ((pieces sizes items).zipIdx n).flatMap fun (piece, n) => piece.map (n, ·) := by
  intro sizes
  induction sizes with
  | nil => exact fun _ _ => rfl
  | cons size sizes ih =>
    intro n items
    rw [List.zipIdx_cons, List.flatMap_cons, zip_replicate_append, ih, pieces, List.zipIdx_cons,
      List.flatMap_cons]

/-- The sections that have bodies, each with its position. -/
def groups (sizes : List Nat) (rendered : List (Entry × Rendered)) : List (Nat × List String) :=
  ((pieces sizes (rendered.map fun p => normalize p.2.body)).zipIdx.map
    fun p => (p.2, p.1.filter (!·.isEmpty))).filter (!·.2.isEmpty)

theorem flatMap_filter {α β : Type} {p : α → Bool} {f : α → List β} {l : List α}
    (h : ∀ a ∈ l, p a = false → f a = []) : (l.filter p).flatMap f = l.flatMap f := by
  induction l with
  | nil => rfl
  | cons a l ih =>
    obtain ⟨ha, hl⟩ := List.forall_mem_cons.mp h
    cases hp : p a with
    | false => rw [List.filter_cons_of_neg (by simp [hp]), ih hl, List.flatMap_cons, ha hp,
        List.nil_append]
    | true => rw [List.filter_cons_of_pos hp, List.flatMap_cons, ih hl, List.flatMap_cons]

theorem blocks_eq (sizes : List Nat) (rendered : List (Entry × Rendered)) :
    blocks sizes rendered = (groups sizes rendered).map (·.2) := by
  have hpieces : ∀ ps : List (List String), (ps.zipIdx.map fun p : List String × Nat =>
      (p.2, p.1.filter (!·.isEmpty))).map (·.2) = ps.map (·.filter (!·.isEmpty)) := by
    intro ps
    conv_rhs => rw [← List.zipIdx_map_fst 0 ps]
    rw [List.map_map, List.map_map]
    rfl
  rw [groups, blocks, ← hpieces, List.filter_map]
  rfl

theorem placed_eq (sizes : List Nat) (rendered : List (Entry × Rendered)) :
    placed sizes rendered = (groups sizes rendered).flatMap fun g => g.2.map (g.1, ·) := by
  have hempty : ∀ g : Nat × List String, (!g.2.isEmpty) = false → g.2.map (g.1, ·) = [] := by
    intro g hg
    rw [List.map_eq_nil_iff]
    simpa using hg
  rw [groups, flatMap_filter fun g _ => hempty g, placed, positions, zip_positions,
    List.filter_flatMap, List.flatMap_map]
  refine List.flatMap_congr fun p _ => ?_
  rw [List.filter_map]
  rfl

theorem nodup_groups (sizes : List Nat) (rendered : List (Entry × Rendered)) :
    ((groups sizes rendered).map (·.1)).Nodup := by
  refine (List.filter_sublist.map _).nodup ?_
  have hposition : ((·.1) ∘ fun p : List String × Nat => (p.2, p.1.filter (!·.isEmpty))) =
      Prod.snd := rfl
  rw [List.map_map, hposition, List.zipIdx_map_snd]
  exact List.nodup_range'

/-! ### Documents -/

/-- The text up to the end of the line that opens the contract. -/
def opening (h : Header) (imports inherits : List String) : String :=
  "// SPDX-License-Identifier: " ++ h.license ++ "\n" ++
  "pragma solidity " ++ h.pragma ++ ";\n" ++
  (if imports.isEmpty then ""
    else "\n" ++ String.join (imports.map fun i => "import " ++ Text.quoted i ++ ";\n")) ++
  "\ncontract " ++ h.contractName ++
  (if inherits.isEmpty then "" else " is " ++ ", ".intercalate inherits) ++ " \x7b\n"

/-- **The text of a document** has the lines of the bodies and their gaps after the
line that opens the contract, and then the one that closes it. -/
theorem layout_blocks (h : Header) (imports inherits : List String) (sizes : List Nat)
    (rendered : List (Entry × Rendered)) :
    layout h imports inherits (blocks sizes rendered) =
      opening h imports inherits ++ joinLines (separated (placed sizes rendered)) ++ "\x7d\n" := by
  have hne : ∀ g ∈ groups sizes rendered, g.2 ≠ [] := by
    intro g hg
    simpa using (List.mem_filter.mp hg).2
  have hblocks : "\n".intercalate ((blocks sizes rendered).map sectionText) =
      joinLines (separated (placed sizes rendered)) := by
    have h := intercalate_sectionText (nodup_groups sizes rendered) hne
    rw [blocks_eq, List.map_map, placed_eq]
    exact h
  unfold layout opening
  rw [hblocks]

theorem source_ofRendered (h : Header) (sizes : List Nat) (rendered : List (Entry × Rendered)) :
    (ofRendered h sizes rendered).source =
      opening h (ofRendered h sizes rendered).imports (ofRendered h sizes rendered).inherits ++
        joinLines (separated (placed sizes rendered)) ++ "\x7d\n" :=
  layout_blocks h (ofRendered h sizes rendered).imports (ofRendered h sizes rendered).inherits
    sizes rendered

theorem exists_of_mem_placed {sizes : List Nat} {rendered : List (Entry × Rendered)}
    {b : Nat × String} (h : b ∈ placed sizes rendered) :
    ∃ body, b.2 = normalize body ∧ (normalize body).isEmpty = false := by
  obtain ⟨hb, hne⟩ := List.mem_filter.mp h
  obtain ⟨p, -, hp⟩ := List.mem_map.mp (List.of_mem_zip hb).2
  exact ⟨p.2.body, hp.symm, by simpa [← hp] using hne⟩

theorem isTidy_of_mem_placed {sizes : List Nat} {rendered : List (Entry × Rendered)}
    {b : Nat × String} (h : b ∈ placed sizes rendered) : IsTidy (lines b.2) := by
  obtain ⟨body, hb, hne⟩ := exists_of_mem_placed h
  rw [hb]
  exact isTidy_lines_normalize hne

theorem length_positions (sizes : List Nat) : (positions sizes).length = sizes.sum := by
  have hsizes : sizes.zipIdx.map (fun p => (List.replicate p.1 p.2).length) = sizes := by
    conv_rhs => rw [← List.zipIdx_map_fst 0 sizes]
    simp
  rw [positions, List.length_flatMap, hsizes]

/-- The bodies that are laid out have all that the entries have to say. -/
theorem flatMap_placed {sizes : List Nat} {rendered : List (Entry × Rendered)}
    (h : rendered.length = sizes.sum) :
    ((placed sizes rendered).flatMap fun b => (lines b.2).filter (!isBlankLine ·)) =
      rendered.flatMap fun p => content p.2.body := by
  have hempty : ∀ b : Nat × String, (!b.2.isEmpty) = false →
      (lines b.2).filter (!isBlankLine ·) = [] := by
    intro b hb
    have hnil : b.2 = "" := by simpa using hb
    rw [hnil]
    rfl
  have hbodies : ((positions sizes).zip (rendered.map fun p => normalize p.2.body)).map (·.2) =
      rendered.map fun p => normalize p.2.body :=
    List.map_snd_zip (by rw [length_positions, List.length_map, h])
  calc ((placed sizes rendered).flatMap fun b => (lines b.2).filter (!isBlankLine ·))
      = (((positions sizes).zip (rendered.map fun p => normalize p.2.body)).map (·.2)).flatMap
          fun body => (lines body).filter (!isBlankLine ·) := by
        rw [placed, flatMap_filter fun b _ => hempty b, List.flatMap_map]
    _ = rendered.flatMap fun p => content p.2.body := by
        rw [hbodies, List.flatMap_map]
        exact List.flatMap_congr fun p _ => filter_lines_normalize p.2.body

/-- No line of a region has the end of one in it. -/
theorem notMem_of_mem_separated : ∀ {bodies : List (Nat × String)} {l : String},
    l ∈ separated bodies → '\n' ∉ l.toList := by
  have hmoved : ∀ {s l : String}, l ∈ moved (lines s) → '\n' ∉ l.toList := by
    intro s l hl
    obtain ⟨m, hm, rfl⟩ := List.mem_map.mp hl
    split
    · simp
    · simpa using notMem_of_mem_lines hm
  intro bodies
  induction bodies with
  | nil => simp [separated]
  | cons b bodies ih =>
    intro l hl
    cases bodies with
    | nil => exact hmoved hl
    | cons c bodies =>
      rw [separated] at hl
      rcases List.mem_append.mp hl with hl | hl
      · rcases List.mem_append.mp hl with hl | hl
        · exact hmoved hl
        · simp [eq_of_mem_gap hl]
      · exact ih hl

end Document

theorem map_fst_renderAll : ∀ {entries : List Entry} {cache : RenderCache}
    {rendered : List (Entry × Rendered)}, (renderAll cache entries).1 = .ok rendered →
      rendered.map (·.1) = entries := by
  intro entries
  induction entries with
  | nil =>
    intro cache rendered h
    cases h
    rfl
  | cons e rest ih =>
    intro cache rendered h
    rw [renderAll] at h
    generalize e.render cache = result at h
    obtain ⟨r, cache⟩ := result
    cases r with
    | error f => cases h
    | ok r =>
      change (renderAll cache rest).1.map ((e, r) :: ·) = _ at h
      cases hothers : (renderAll cache rest).1 with
      | error f =>
        rw [hothers] at h
        cases h
      | ok others =>
        rw [hothers] at h
        cases h
        rw [List.map_cons, ih hothers]

namespace Arrangement

open Document Text

variable {a : Arrangement} {h : Header} {cache : RenderCache} {d : Document}

/-- A document is made of the renderings of all entries. -/
theorem emit_eq_ok : (a.emit h cache).1 = .ok d ↔ ∃ rendered,
    (renderAll cache a.entries).1 = .ok rendered ∧
      ofRendered h.withDefaults a.sizes rendered = d := by
  change (renderAll cache a.entries).1.map _ = _ ↔ _
  cases (renderAll cache a.entries).1 with
  | error f => exact iff_of_false (fun h => by cases h) fun ⟨_, h, _⟩ => by cases h
  | ok rendered =>
    constructor
    · exact fun h => ⟨rendered, rfl, Except.ok.inj h⟩
    · rintro ⟨_, hrendered, rfl⟩
      rw [Except.ok.inj hrendered]
      rfl

/-- **A layout loses and adds nothing.**  In the text of a document there are lines
between the one that opens the contract and the one that closes it.

Those that are not blank say, four spaces further in, what the rendered entries say
in their order; no line ends in a blank, and neither the first nor the last is
blank.  Two bodies that follow each other, none of them empty, have one blank line
between them if they are in different sections or one has several lines, and nothing
otherwise.  A body that is put in order stays as it is when this is done again. -/
theorem layout_of_emit (hd : (a.emit h cache).1 = .ok d) :
    (∃ rendered region, (renderAll cache a.entries).1 = .ok rendered ∧
      rendered.map (·.1) = a.entries ∧
      d.source = opening h.withDefaults d.imports d.inherits ++ joinLines region ++ "\x7d\n" ∧
      (∀ l ∈ region, '\n' ∉ l.toList) ∧
      region.filter (!isBlankLine ·) =
        (rendered.flatMap fun p => content p.2.body).map ("    " ++ ·) ∧
      IsTidy region ∧
      region = separated (placed a.sizes rendered) ∧
      ∀ before b c after, placed a.sizes rendered = before ++ b :: c :: after →
        IsTidy (lines b.2) ∧ IsTidy (lines c.2) ∧ ∃ above below,
          region = above ++ moved (lines b.2) ++ gap b c ++ moved (lines c.2) ++ below) ∧
    ∀ body, Document.normalize (Document.normalize body) = Document.normalize body := by
  refine ⟨?_, Document.normalize_normalize⟩
  obtain ⟨rendered, hrendered, rfl⟩ := emit_eq_ok.mp hd
  have hentries := map_fst_renderAll hrendered
  have hlength : rendered.length = a.sizes.sum := by
    rw [← List.length_map (·.1), hentries, entries, List.length_flatMap, sizes]
  refine ⟨rendered, separated (placed a.sizes rendered), hrendered, hentries,
    source_ofRendered _ _ _, fun l => notMem_of_mem_separated, ?_,
    isTidy_separated fun b => isTidy_of_mem_placed, rfl, ?_⟩
  · rw [filter_separated, flatMap_placed hlength]
  · intro before b c after hplaced
    have hb : b ∈ placed a.sizes rendered := hplaced ▸ by simp
    have hc : c ∈ placed a.sizes rendered := hplaced ▸ by simp
    refine ⟨isTidy_of_mem_placed hb, isTidy_of_mem_placed hc, ?_⟩
    obtain ⟨above, habove⟩ := exists_separated_concat b before
    obtain ⟨below, hbelow⟩ := exists_separated_cons c after
    refine ⟨above, below, ?_⟩
    rw [hplaced, separated_append, habove, hbelow, ← List.append_assoc]

/-- A template of two lines. -/
def noteTemplate : Template :=
  { (default : Template) with
    id := "note"
    imports := .literal (.null .dynamic)
    inherits := .literal (.null .dynamic)
    emit := .template [.literal (.string "\n/// A note.  \nuint internal noted;\r\n")] }

/-- An entry with it. -/
def note : Entry := ⟨Component.ofInstance ⟨"a", "note", []⟩ noteTemplate, []⟩

theorem rendering_note : note.rendering =
    .ok ⟨"\n/// A note.  \nuint internal noted;\r\n", [], []⟩ := rfl

/-- The entry in two sections. -/
def notes : Arrangement := ⟨[(.state, [note]), (.events, []), (.functions, [note])]⟩

/-- The second time the rendering is remembered. -/
theorem renderAll_twice {e : Entry} {r : Rendered} (h : cache.find? e.key = none)
    (hr : e.rendering = .ok r) : (renderAll cache [e, e]).1 = .ok [(e, r), (e, r)] := by
  rw [renderAll, Entry.render_of_none h hr]
  dsimp only
  rw [renderAll, Entry.render_of_some (Cache.find?_add_self cache e.key r)]
  rfl

theorem notes_laidOut : ∃ d, (notes.emit {} (RenderCache.new 1)).1 = .ok d ∧ ∃ region,
    d.source = opening Header.default d.imports d.inherits ++ joinLines region ++ "\x7d\n" ∧
      IsTidy region := by
  obtain ⟨d, hd⟩ : ∃ d, (notes.emit {} (RenderCache.new 1)).1 = .ok d :=
    ⟨_, emit_eq_ok.mpr ⟨_, renderAll_twice rfl rendering_note, rfl⟩⟩
  obtain ⟨⟨_, region, -, -, hsource, -, -, htidy, -⟩, -⟩ := layout_of_emit hd
  exact ⟨d, hd, region, hsource, htidy⟩

end Arrangement

end SolidityCanvas
