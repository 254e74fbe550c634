/-
What is written with line breaks is read back.

The reader skips white space wherever a new line can begin (`Follows.gap`), so the items
of an indented container are read one after another as those of a compact one are
(`Follows.rowAfter`).

* `Follows.indentedValue`: inside a container, an indented document is read as what it is;
* `parse?_indented`: so is a whole list, unless it is nested too deep.
-/
import SolidityCanvas.Proofs.Json.Reading

namespace SolidityCanvas.Json

open Text (row rowAfter)

/-! ### Indented rows -/

/-- The characters of an indented document. -/
def indentedChars (depth : Nat) (j : Json) : List Char := (j.indented depth).toList

/-- The characters of an indented member. -/
def indentedMember (depth : Nat) (m : String × Json) : List Char :=
  (quotedText m.1).toList ++ ':' :: ' ' :: m.2.indentedChars depth

/-- The characters of a line break and the blanks after it. -/
def indent (depth : Nat) : List Char := (newline depth).toList

theorem indent_eq (depth : Nat) : indent depth = '\n' :: List.replicate (2 * depth) ' ' := by
  simp [indent, newline]

theorem isSpace_of_mem_indent {depth : Nat} : ∀ c ∈ indent depth, isSpace c = true := by
  rw [indent_eq, List.forall_mem_cons]
  refine ⟨rfl, fun c hc => ?_⟩
  rw [List.eq_of_mem_replicate hc]
  rfl

attribute [local simp] indented itemsIndented membersIndented

theorem indentedChars_array (depth : Nat) (j : Json) (items : List Json) (s : List Char) :
    (array (j :: items)).indentedChars depth ++ s = '[' :: (indent (depth + 1) ++
      row (indentedChars (depth + 1)) (',' :: indent (depth + 1)) (indent depth ++ ']' :: s)
        (j :: items)) := by
  rw [← Text.append_eq_row (g := fun items => (itemsIndented (depth + 1) items).toList)]
  · simp [indentedChars, indent]
  · simp
  · intro j
    rw [itemsIndented, indentedChars]
  · intro j k rest
    simp [indentedChars, indent]

theorem indentedChars_object (depth : Nat) (m : String × Json) (members : List (String × Json))
    (s : List Char) :
    (object (m :: members)).indentedChars depth ++ s = '\x7b' :: (indent (depth + 1) ++
      row (indentedMember (depth + 1)) (',' :: indent (depth + 1)) (indent depth ++ '\x7d' :: s)
        (m :: members)) := by
  rw [← Text.append_eq_row (g := fun members => (membersIndented (depth + 1) members).toList)]
  · simp [indentedChars, indent]
  · simp
  · rintro ⟨n, j⟩
    simp [indentedMember, indentedChars]
  · rintro ⟨n, j⟩ m rest
    simp [indentedMember, indentedChars, indent]

theorem indentedChars_scalar {j : Json} (harray : ∀ items, j ≠ array items)
    (hobject : ∀ members, j ≠ object members) (depth : Nat) : j.indentedChars depth = j.chars := by
  cases j with
  | array items => exact absurd rfl (harray items)
  | object members => exact absurd rfl (hobject members)
  | _ => simp [indentedChars, chars, text]

theorem indentedChars_nil (depth : Nat) : (array []).indentedChars depth = ['[', ']'] ∧
    (object []).indentedChars depth = ['\x7b', '\x7d'] := by
  simp [indentedChars]

/-- An indented document begins as a compact one does. -/
theorem exists_head_indented {j : Json} (h : j.Readable) (depth : Nat) :
    ∃ c rest, j.indentedChars depth = c :: rest ∧ isSpace c = false ∧ c ≠ ']' := by
  cases h with
  | @array items _ =>
    refine ⟨'[', ?_⟩
    cases items with
    | nil => exact ⟨_, (indentedChars_nil depth).1, rfl, by decide⟩
    | cons j items =>
      exact ⟨_, (List.append_nil _).symm.trans (indentedChars_array depth j items []), rfl,
        by decide⟩
  | @object members _ =>
    refine ⟨'\x7b', ?_⟩
    cases members with
    | nil => exact ⟨_, (indentedChars_nil depth).2, rfl, by decide⟩
    | cons m members =>
      exact ⟨_, (List.append_nil _).symm.trans (indentedChars_object depth m members []), rfl,
        by decide⟩
  | null =>
    rw [indentedChars_scalar (by simp) (by simp)]
    exact Follows.exists_head .null
  | bool b =>
    rw [indentedChars_scalar (by simp) (by simp)]
    exact Follows.exists_head (.bool b)
  | number h =>
    rw [indentedChars_scalar (by simp) (by simp)]
    exact Follows.exists_head (.number h)
  | string s =>
    rw [indentedChars_scalar (by simp) (by simp)]
    exact Follows.exists_head (.string s)

/-! ### Readers and white space -/

/-- Whether white space may come next. -/
def Mode.skips : Mode → Bool
  | value | firstItem | firstName | name | colon | next => true
  | _ => false

theorem step?_of_skips {m : Mode} (hm : m.skips = true) (st : List Frame) {c : Char}
    (hc : isSpace c = true) : Reader.step? ⟨m, st⟩ c = some ⟨m, st⟩ := by
  cases m <;> simp_all [Mode.skips, Reader.step?, Reader.afterValue?]

namespace Follows

variable {k : Reader → List Char → Option Json} (hk : Follows k) {st : List Frame}
include hk

/-- White space is skipped. -/
theorem gap {m : Mode} (hm : m.skips = true) (hst : st ≠ []) {space : List Char}
    (hspace : ∀ c ∈ space, isSpace c = true) (cs : List Char) :
    k ⟨m, st⟩ (space ++ cs) = k ⟨m, st⟩ cs := by
  induction space with
  | nil => rfl
  | cons c space ih =>
    obtain ⟨hc, hspace⟩ := List.forall_mem_cons.mp hspace
    rw [List.cons_append, hk.step _ _ hst (step?_of_skips hm st hc), ih hspace]
    rintro v rfl
    cases hm

omit hk in
theorem ends_indent (depth : Nat) (cs : List Char) : Ends (indent depth ++ cs) := by
  rw [indent_eq]
  exact ⟨'\n', _, rfl, fun part => by cases part <;> rfl⟩

omit hk in
theorem ends_rowAfter {α : Type} (f : α → List Char) (sep : List Char) {close : List Char}
    (hclose : Ends close) (l : List α) : Ends (rowAfter f (',' :: sep) close l) := by
  cases l with
  | nil => exact hclose
  | cons a l => exact ⟨',', _, rfl, fun part => by cases part <;> rfl⟩

/-- The items of a container, each read in one mode, which a comma leads to. -/
structure ReadsRow {α : Type} (k : Reader → List Char → Option Json) (st : List Frame)
    (f : α → List Char) (frame : List α → Frame) (size : α → Nat) (m : Mode) (l : List α) :
    Prop where
  skips : m.skips = true
  comma : ∀ acc, Reader.step? ⟨.next, frame acc :: st⟩ ',' = some ⟨m, frame acc :: st⟩
  item : ∀ a ∈ l, ∀ (acc : List α) {cs : List Char}, Ends cs →
    k ⟨m, frame acc :: st⟩ (f a ++ cs) =
      if st.length + 1 + size a ≤ maxDepth then k ⟨.next, frame (a :: acc) :: st⟩ cs else none

section

variable {α : Type} {f : α → List Char} {frame : List α → Frame} {size : α → Nat} {m : Mode}
  {a : α} {l : List α} {depth depth' : Nat}

omit hk in
theorem ReadsRow.tail (h : ReadsRow k st f frame size m (a :: l)) :
    ReadsRow k st f frame size m l :=
  ⟨h.skips, h.comma, fun b hb => h.item b (List.mem_cons_of_mem a hb)⟩

/-- Items after a comma each, of a container that holds some items already. -/
theorem rowAfter (h : ReadsRow k st f frame size m l) (acc : List α) (cs : List Char) :
    k ⟨.next, frame acc :: st⟩ (rowAfter f (',' :: indent depth) (indent depth' ++ cs) l) =
      if ∀ a ∈ l, st.length + 1 + size a ≤ maxDepth then
        k ⟨.next, frame (l.reverse ++ acc) :: st⟩ cs
      else none := by
  induction l generalizing acc with
  | nil =>
    rw [if_pos (by simp)]
    exact hk.gap rfl (by simp) isSpace_of_mem_indent cs
  | cons a l ih =>
    have hnext : ∀ v, m ≠ .done v := by
      rintro v rfl
      cases h.skips
    rw [Text.rowAfter, List.cons_append, hk.step _ _ (by simp) (h.comma acc) hnext,
      hk.gap h.skips (by simp) isSpace_of_mem_indent,
      h.item a List.mem_cons_self acc (ends_rowAfter f _ (ends_indent _ _) l), ih h.tail]
    simp only [List.reverse_cons, List.append_assoc, List.singleton_append, ← ite_and,
      List.forall_mem_cons]

/-- All items of a container, the first of which may be read in another mode. -/
theorem row (h : ReadsRow k st f frame size m (a :: l)) {first : Mode}
    (hfirst : first.skips = true)
    (hhead : ∀ cs, k ⟨first, frame [] :: st⟩ (f a ++ cs) = k ⟨m, frame [] :: st⟩ (f a ++ cs))
    (cs : List Char) :
    k ⟨first, frame [] :: st⟩
        (indent depth ++ Text.row f (',' :: indent depth) (indent depth' ++ cs) (a :: l)) =
      if ∀ b ∈ a :: l, st.length + 1 + size b ≤ maxDepth then
        k ⟨.next, frame (a :: l).reverse :: st⟩ cs
      else none := by
  rw [hk.gap hfirst (by simp) isSpace_of_mem_indent, Text.row, hhead,
    h.item a List.mem_cons_self [] (ends_rowAfter f _ (ends_indent _ _) l), hk.rowAfter h.tail]
  simp only [List.reverse_cons, ← ite_and, List.forall_mem_cons]

end

/-- An indented document, inside a container, is read as the document. -/
def ReadsIndented (k : Reader → List Char → Option Json) (j : Json) : Prop :=
  ∀ (depth : Nat) (st : List Frame), st ≠ [] → st.length ≤ maxDepth → ∀ {cs : List Char}, Ends cs →
    k ⟨.value, st⟩ (j.indentedChars depth ++ cs) =
      if st.length + j.depth ≤ maxDepth then k (Reader.give st j) cs else none

variable {depth depth' : Nat}

omit hk in
theorem readsRow_items {items : List Json} (h : ∀ j ∈ items, ReadsIndented k j)
    (hst : st.length < maxDepth) :
    ReadsRow k st (indentedChars depth) Frame.array Json.depth .value items where
  skips := rfl
  comma := fun acc => rfl
  item := fun j hj acc _ hcs => h j hj depth (.array acc :: st) (by simp) hst hcs

theorem readsRow_members {members : List (String × Json)}
    (h : ∀ m ∈ members, ReadsIndented k m.2) (hst : st.length < maxDepth) :
    ReadsRow k st (indentedMember depth) (fun ms => .object ms "") (fun m => m.2.depth) .name
      members where
  skips := rfl
  comma := fun acc => rfl
  item := fun m hm acc cs hcs => by
    rw [indentedMember, List.append_assoc, List.cons_append, hk.name (.inl rfl), List.cons_append,
      hk.step _ _ (by simp) (step?_of_skips rfl _ rfl) (by simp),
      h m hm depth (.object acc m.1 :: st) (by simp) hst hcs]
    rfl

omit hk in
theorem itemsDepth_add_le {items : List Json} {n : Nat} (hn : n ≤ maxDepth) :
    n + itemsDepth items ≤ maxDepth ↔ ∀ j ∈ items, n + j.depth ≤ maxDepth := by
  rw [Nat.add_comm, ← Nat.le_sub_iff_add_le hn, itemsDepth_le]
  exact forall₂_congr fun j _ => by omega

omit hk in
theorem membersDepth_add_le {members : List (String × Json)} {n : Nat} (hn : n ≤ maxDepth) :
    n + membersDepth members ≤ maxDepth ↔ ∀ m ∈ members, n + m.2.depth ≤ maxDepth := by
  rw [Nat.add_comm, ← Nat.le_sub_iff_add_le hn, membersDepth_le]
  exact forall₂_congr fun j _ => by omega

/-- The first item is read as any other value. -/
theorem indentedItems {j : Json} {items : List Json} (hj : j.Readable)
    (h : ∀ i ∈ j :: items, ReadsIndented k i) (hst : st.length < maxDepth) (cs : List Char) :
    k ⟨.firstItem, .array [] :: st⟩ (indent depth ++
        Text.row (indentedChars depth) (',' :: indent depth) (indent depth' ++ cs) (j :: items)) =
      if st.length + 1 + itemsDepth (j :: items) ≤ maxDepth then
        k ⟨.next, .array (j :: items).reverse :: st⟩ cs
      else none := by
  refine (hk.row (readsRow_items h hst) rfl (fun cs => ?_) cs).trans
    (if_congr (itemsDepth_add_le hst).symm rfl rfl)
  obtain ⟨c, rest, hchars, hspace, hclose⟩ := exists_head_indented hj depth
  rw [hchars, List.cons_append]
  exact hk.same _ (by simp) (by simp) (by simp [Reader.step?, hspace, hclose])

theorem indentedMembers {m : String × Json} {members : List (String × Json)}
    (h : ∀ n ∈ m :: members, ReadsIndented k n.2) (hst : st.length < maxDepth) (cs : List Char) :
    k ⟨.firstName, .object [] "" :: st⟩ (indent depth ++
        Text.row (indentedMember depth) (',' :: indent depth) (indent depth' ++ cs) (m :: members)) =
      if st.length + 1 + membersDepth (m :: members) ≤ maxDepth then
        k ⟨.next, .object (m :: members).reverse "" :: st⟩ cs
      else none := by
  refine (hk.row (hk.readsRow_members h hst) rfl (fun cs => ?_) cs).trans
    (if_congr (membersDepth_add_le hst).symm rfl rfl)
  rw [indentedMember, List.append_assoc, List.cons_append, hk.name (.inl rfl), hk.name (.inr rfl)]

omit hk in
/-- What is no container is written as it is without line breaks. -/
theorem indentedScalar {j : Json} (harray : ∀ items, j ≠ array items)
    (hobject : ∀ members, j ≠ object members) (hdepth : j.depth = 0)
    (h : ∀ st ≠ [], ∀ {cs : List Char}, Ends cs →
      k ⟨.value, st⟩ (j.chars ++ cs) = k (Reader.give st j) cs) : ReadsIndented k j := by
  intro d st hst hle cs hcs
  rw [indentedChars_scalar harray hobject, hdepth, Nat.add_zero, if_pos hle]
  exact h st hst hcs

/-- A container is read as what follows its first character, if there is room for one more. -/
theorem indentedContainer {j : Json} {c : Char} {frame : Frame} {first : Mode} (hst : st ≠ [])
    (hopen : Reader.step? ⟨.value, st⟩ c = Reader.open? st frame first)
    (hfirst : ∀ v, first ≠ .done v) (hdepth : 1 ≤ j.depth) {rest cs : List Char}
    (hchars : j.indentedChars depth ++ cs = c :: rest)
    (hinside : st.length < maxDepth → k ⟨first, frame :: st⟩ rest =
      if st.length + j.depth ≤ maxDepth then k (Reader.give st j) cs else none) :
    k ⟨.value, st⟩ (j.indentedChars depth ++ cs) =
      if st.length + j.depth ≤ maxDepth then k (Reader.give st j) cs else none := by
  rw [hchars]
  by_cases hroom : st.length < maxDepth
  · rw [Reader.open?, if_pos hroom] at hopen
    rw [hk.step _ _ hst hopen hfirst, hinside hroom]
  · rw [Reader.open?, if_neg hroom] at hopen
    rw [hk.fail _ hst hopen, if_neg (by omega)]

/-- **Inside a container, what is written with line breaks is read back**, unless it is nested
too deep. -/
theorem indentedValue {j : Json} (h : j.Readable) : ReadsIndented k j := by
  induction h with
  | null =>
    exact indentedScalar (by simp) (by simp) rfl fun st hst _ _ =>
      hk.word hst (by simp) rfl _
  | bool b =>
    refine indentedScalar (by simp) (by simp) rfl fun st hst _ _ => ?_
    cases b with
    | false => exact hk.word hst (by simp) rfl _
    | true => exact hk.word hst (by simp) rfl _
  | number h =>
    exact indentedScalar (by simp) (by simp) rfl fun st hst _ hcs => hk.numberValue h hst hcs
  | string s =>
    exact indentedScalar (by simp) (by simp) rfl fun st hst _ _ => hk.stringValue hst s _
  | @array items hitems ih =>
    intro d st hst hle cs _
    have hopen : Reader.step? ⟨.value, st⟩ '[' = Reader.open? st (.array []) .firstItem := rfl
    have hclose : Reader.step? ⟨.next, .array items.reverse :: st⟩ ']' =
        some (Reader.give st (.array items)) := by
      simp [Reader.step?, Reader.afterValue?, isSpace, Reader.close?]
    have hdepth : st.length + (array items).depth = st.length + 1 + itemsDepth items := by
      rw [Json.depth, Nat.add_comm _ 1, Nat.add_assoc]
    cases items with
    | nil =>
      refine hk.indentedContainer hst hopen (by simp) (Nat.le_add_left 1 _)
        (by rw [(indentedChars_nil d).1, List.cons_append]) fun hroom => ?_
      rw [if_pos (by simpa [Json.depth, itemsDepth] using Nat.succ_le_of_lt hroom)]
      exact hk.step _ _ (by simp) rfl (mode_give_ne hst _)
    | cons j items =>
      refine hk.indentedContainer hst hopen (by simp) (Nat.le_add_left 1 _)
        (indentedChars_array d j items cs) fun hroom => ?_
      rw [hk.indentedItems (hitems j List.mem_cons_self) ih hroom, hdepth]
      exact if_congr Iff.rfl (hk.step _ _ (by simp) hclose (mode_give_ne hst _)) rfl
  | @object members _ ih =>
    intro d st hst hle cs _
    have hopen : Reader.step? ⟨.value, st⟩ '\x7b' =
        Reader.open? st (.object [] "") .firstName := rfl
    have hclose : Reader.step? ⟨.next, .object members.reverse "" :: st⟩ '\x7d' =
        some (Reader.give st (.object members)) := by
      simp [Reader.step?, Reader.afterValue?, isSpace, Reader.close?]
    have hdepth : st.length + (object members).depth = st.length + 1 + membersDepth members := by
      rw [Json.depth, Nat.add_comm _ 1, Nat.add_assoc]
    cases members with
    | nil =>
      refine hk.indentedContainer hst hopen (by simp) (Nat.le_add_left 1 _)
        (by rw [(indentedChars_nil d).2, List.cons_append]) fun hroom => ?_
      rw [if_pos (by simpa [Json.depth, membersDepth] using Nat.succ_le_of_lt hroom)]
      exact hk.step _ _ (by simp) rfl (mode_give_ne hst _)
    | cons m members =>
      refine hk.indentedContainer hst hopen (by simp) (Nat.le_add_left 1 _)
        (indentedChars_object d m members cs) fun hroom => ?_
      rw [hk.indentedMembers ih hroom, hdepth]
      exact if_congr Iff.rfl (hk.step _ _ (by simp) hclose (mode_give_ne hst _)) rfl

end Follows

/-- A list that is written with line breaks is read back as it is. -/
theorem parse?_indented {items : List Json} (h : ∀ j ∈ items, j.Readable) (depth : Nat) :
    parse? ((array items).indented depth) =
      if (array items).depth ≤ maxDepth then some (array items) else none := by
  have hstart : Reader.step? {} '[' = some ⟨.firstItem, [.array []]⟩ := rfl
  have hend : Reader.run ⟨.next, [.array items.reverse]⟩ [']'] = some (array items) := by
    have hclose : Reader.step? ⟨.next, [.array items.reverse]⟩ ']' =
        some ⟨.done (array items), []⟩ := by
      simp [Reader.step?, Reader.afterValue?, isSpace, Reader.close?, Reader.give]
    rw [run_cons (by simp), hclose]
    rfl
  rw [Json.depth, Nat.add_comm, parse?]
  change Reader.run _ ((array items).indentedChars depth) = _
  cases items with
  | nil =>
    rw [(indentedChars_nil depth).1]
    rfl
  | cons j items =>
    have hchars := (List.append_nil _).symm.trans (indentedChars_array depth j items [])
    have hroom : ([] : List Frame).length < maxDepth := by decide
    rw [hchars, Reader.run, hstart]
    change Reader.run _ _ = _
    rw [follows_run.indentedItems (h j List.mem_cons_self)
      (fun i hi => follows_run.indentedValue (h i hi)) hroom, hend]
    exact if_congr (by rw [List.length_nil, Nat.zero_add]) rfl rfl

end SolidityCanvas.Json
