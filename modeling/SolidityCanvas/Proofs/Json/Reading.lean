/-
What is written is read back.

The two ways of reading a text share their steps as long as a container is
open (`Follows`).  So one induction over a document shows what both make of its
written form inside a container (`Follows.value`), and from it:

* `parse?_text`, `parseFirst?_text`: a written object is read back as it is,
  unless its containers are nested too deep;
* `depth_le_of_parse?`: what is read is not nested too deep.
-/
import SolidityCanvas.Json.Reader
import SolidityCanvas.Proofs.Json.Written

namespace SolidityCanvas.Json

open Text (row rowAfter)

/-! ### Depth and numbers -/

mutual

/-- How deep containers are nested. -/
def depth : Json → Nat
  | array items => itemsDepth items + 1
  | object members => membersDepth members + 1
  | null | bool _ | number _ | string _ => 0

/-- The depth of the deepest item. -/
def itemsDepth : List Json → Nat
  | [] => 0
  | j :: js => max (depth j) (itemsDepth js)

/-- The depth of the deepest member. -/
def membersDepth : List (String × Json) → Nat
  | [] => 0
  | (_, j) :: rest => max (depth j) (membersDepth rest)

end

theorem itemsDepth_le {items : List Json} {d : Nat} :
    itemsDepth items ≤ d ↔ ∀ j ∈ items, j.depth ≤ d := by
  induction items with
  | nil => simp [itemsDepth]
  | cons j items ih => simp [itemsDepth, ih]

theorem membersDepth_le {members : List (String × Json)} {d : Nat} :
    membersDepth members ≤ d ↔ ∀ m ∈ members, m.2.depth ≤ d := by
  induction members with
  | nil => simp [membersDepth]
  | cons m members ih =>
    obtain ⟨n, j⟩ := m
    simp [membersDepth, ih]

/-- The place in a number after its first character. -/
def NumberPart.first? (c : Char) : Option NumberPart :=
  if c == '-' then some .minus
  else if c == '0' then some .zero
  else if '1' ≤ c && c ≤ '9' then some .whole
  else none

/-- The text is a number of a document. -/
def IsNumber (t : String) : Prop :=
  ∃ c rest start part, t.toList = c :: rest ∧ NumberPart.first? c = some start ∧
    rest.foldlM NumberPart.next? start = some part ∧ part.complete

/-- All numbers are written as numbers of a document. -/
inductive Readable : Json → Prop
  | null : Readable null
  | bool (b : Bool) : Readable (bool b)
  | number {t : String} (h : IsNumber t) : Readable (number t)
  | string (s : String) : Readable (string s)
  | array {items : List Json} (h : ∀ j ∈ items, Readable j) : Readable (array items)
  | object {members : List (String × Json)} (h : ∀ m ∈ members, Readable m.2) :
      Readable (object members)

@[simp] theorem readable_string (s : String) : (string s).Readable := .string s

@[simp] theorem readable_array_iff {items : List Json} :
    (array items).Readable ↔ ∀ j ∈ items, j.Readable :=
  ⟨fun | .array h => h, .array⟩

@[simp] theorem readable_object_iff {members : List (String × Json)} :
    (object members).Readable ↔ ∀ m ∈ members, m.2.Readable :=
  ⟨fun | .object h => h, .object⟩

/-! ### Readers inside a container -/

/-- Inside a container, reading is taking steps. -/
structure Follows (k : Reader → List Char → Option Json) : Prop where
  same : ∀ {r r' : Reader} {c : Char} (cs : List Char), r.stack ≠ [] → r'.stack ≠ [] →
    r.step? c = r'.step? c → k r (c :: cs) = k r' (c :: cs)
  fail : ∀ {r : Reader} {c : Char} (cs : List Char), r.stack ≠ [] → r.step? c = none →
    k r (c :: cs) = none
  step : ∀ {r : Reader} (r' : Reader) {c : Char} (cs : List Char), r.stack ≠ [] →
    r.step? c = some r' → (∀ v, r'.mode ≠ .done v) → k r (c :: cs) = k r' cs

theorem run_cons {r : Reader} (hst : r.stack ≠ []) (c : Char) (cs : List Char) :
    r.run (c :: cs) = (r.step? c).bind fun r' => r'.run cs := by
  obtain ⟨m, st⟩ := r
  obtain ⟨f, st, rfl⟩ := List.exists_cons_of_ne_nil hst
  rw [Reader.run]
  cases Reader.step? ⟨m, f :: st⟩ c with
  | none => rfl
  | some r' => cases m <;> rfl

theorem follows_run : Follows Reader.run where
  same := by
    intro r r' c cs hst hst' h
    rw [run_cons hst, run_cons hst', h]
  fail := by
    intro r c cs hst h
    rw [run_cons hst, h]
    rfl
  step := by
    intro r r' c cs hst h _
    rw [run_cons hst, h]
    rfl

theorem follows_runFirst : Follows Reader.runFirst where
  same := by
    intro r r' c cs _ _ h
    rw [Reader.runFirst, Reader.runFirst, h]
  fail := by
    intro r c cs _ h
    rw [Reader.runFirst, h]
  step := by
    rintro r ⟨m, st⟩ c cs _ h hdone
    rw [Reader.runFirst, h]
    cases m with
    | done v => exact absurd rfl (hdone v)
    | _ => rfl

namespace Follows

variable {k : Reader → List Char → Option Json} (hk : Follows k) {st : List Frame}
include hk

/-! ### Texts -/

theorem unit {t : PartialText} {n : Nat} (hst : st ≠ []) (hn : n < 0xD800) (hhigh : t.high = none)
    (cs : List Char) : k ⟨.unit t 4 0, st⟩ (Text.hexPadded 4 n ++ cs) =
      k ⟨.text (t.push (Char.ofNat n)), st⟩ cs := by
  have hdigit : ∀ m < 16, Text.isHexDigit (Text.hexDigit m) = true := by decide
  have hstep : ∀ {missing value m : Nat} {cs : List Char}, m < 16 → 1 < missing →
      k ⟨.unit t missing value, st⟩ (Text.hexDigit m :: cs) =
        k ⟨.unit t (missing - 1) (value * 16 + m), st⟩ cs := by
    intro missing value m cs hm hmissing
    refine hk.step _ cs hst ?_ (by simp)
    simp [Reader.step?, hdigit m hm, Text.hexDigitValue_hexDigit hm, Nat.not_le.mpr hmissing]
  have hlast : ∀ {value m : Nat}, m < 16 → k ⟨.unit t 1 value, st⟩ (Text.hexDigit m :: cs) =
      k ⟨.text (t.pushUnit (value * 16 + m)), st⟩ cs := by
    intro value m hm
    refine hk.step _ cs hst ?_ (by simp)
    simp [Reader.step?, hdigit m hm, Text.hexDigitValue_hexDigit hm]
  have hpush : t.pushUnit n = t.push (Char.ofNat n) := by
    have hhalf : ¬ 0xD800 ≤ n := by omega
    have hhalf' : ¬ 0xDC00 ≤ n := by omega
    simp [PartialText.pushUnit, hhigh, hhalf, hhalf']
  have hvalue : (((0 * 16 + n / 16 / 16 / 16 % 16) * 16 + n / 16 / 16 % 16) * 16 +
      n / 16 % 16) * 16 + n % 16 = n := by omega
  have hpad : Text.hexPadded 4 n ++ cs = Text.hexDigit (n / 16 / 16 / 16 % 16) ::
      Text.hexDigit (n / 16 / 16 % 16) :: Text.hexDigit (n / 16 % 16) ::
      Text.hexDigit (n % 16) :: cs := rfl
  rw [hpad, hstep (Nat.mod_lt _ (by omega)) (by omega), hstep (Nat.mod_lt _ (by omega)) (by omega),
    hstep (Nat.mod_lt _ (by omega)) (by omega), hlast (Nat.mod_lt _ (by omega)), hvalue, hpush]

/-- A character as it is written is read as the character. -/
theorem escapedChar {t : PartialText} (hst : st ≠ []) (hhigh : t.high = none) (c : Char)
    (cs : List Char) : k ⟨.text t, st⟩ (Json.escapedChar c ++ cs) = k ⟨.text (t.push c), st⟩ cs := by
  have hletter : ∀ {d e : Char}, d ≠ 'u' → escaped? d = some e → ∀ cs,
      k ⟨.text t, st⟩ ('\\' :: d :: cs) = k ⟨.text (t.push e), st⟩ cs := by
    intro d e hd he cs
    rw [hk.step ⟨.escape t, st⟩ _ hst rfl (by simp)]
    exact hk.step _ _ hst (by simp [Reader.step?, hd, he]) (by simp)
  unfold Json.escapedChar
  split
  · exact hletter (by decide) rfl cs
  · exact hletter (by decide) rfl cs
  · exact hletter (by decide) rfl cs
  · exact hletter (by decide) rfl cs
  · exact hletter (by decide) rfl cs
  rename_i hquote hbackslash _ _ _
  dsimp only
  split
  · rename_i h
    rw [Text.eq_ofNat (beq_iff_eq.mp h)]
    exact hletter (by decide) rfl cs
  split
  · rename_i h
    rw [Text.eq_ofNat (beq_iff_eq.mp h)]
    exact hletter (by decide) rfl cs
  split
  · rename_i h
    have hlt : c.toNat < 0xD800 := by
      simp only [Bool.or_eq_true, decide_eq_true_eq, beq_iff_eq] at h
      rcases h with ((((h | rfl) | rfl) | rfl) | h) | h
      · omega
      · decide
      · decide
      · decide
      · omega
      · omega
    rw [List.cons_append, List.cons_append, hk.step ⟨.escape t, st⟩ _ hst rfl (by simp),
      hk.step ⟨.unit t 4 0, st⟩ _ hst rfl (by simp), hk.unit hst hlt hhigh, Char.ofNat_toNat]
  · rename_i h
    have hprint : ¬ c.toNat < 32 := fun hlt => h (by simp [hlt])
    refine hk.step _ cs hst ?_ (by simp)
    have hquote : c ≠ '"' := hquote
    have hbackslash : c ≠ '\\' := hbackslash
    simp [Reader.step?, hquote, hbackslash, hprint]

/-- A text in quotes is read as the text. -/
theorem quotedText {t : PartialText} (hst : st ≠ []) (hhigh : t.high = none) (s cs : List Char) :
    k ⟨.text t, st⟩ (s.flatMap Json.escapedChar ++ '"' :: cs) =
      k ⟨.text { t with read := t.read ++ String.ofList s }, st⟩ ('"' :: cs) := by
  induction s generalizing t with
  | nil => simp
  | cons c s ih =>
    have hpush : t.push c = { t with read := t.read.push c } := by
      simp [PartialText.push, PartialText.settle, hhigh]
    rw [List.flatMap_cons, List.append_assoc, hk.escapedChar hst hhigh, hpush]
    refine Eq.trans (ih (t := { t with read := t.read.push c }) hhigh) ?_
    have hread : t.read.push c ++ String.ofList s = t.read ++ String.ofList (c :: s) := by
      apply String.toList_inj.mp
      simp
    rw [hread]

theorem name {members : List (String × Json)} {old : String} {m : Mode}
    (hm : m = .name ∨ m = .firstName) (s : String) (cs : List Char) :
    k ⟨m, .object members old :: st⟩ ((Json.quotedText s).toList ++ ':' :: cs) =
      k ⟨.value, .object members s :: st⟩ cs := by
  have hopen : k ⟨m, .object members old :: st⟩ ((Json.quotedText s).toList ++ ':' :: cs) =
      k ⟨.text ⟨true, "", none⟩, .object members old :: st⟩
        (s.toList.flatMap Json.escapedChar ++ '"' :: (':' :: cs)) := by
    rw [Json.quotedText, String.toList_ofList, List.cons_append, List.append_assoc]
    rcases hm with rfl | rfl
    · exact hk.step _ _ (by simp) rfl (by simp)
    · exact hk.step _ _ (by simp) rfl (by simp)
  have hread : ("" : String) ++ String.ofList s.toList = s := by simp
  rw [hopen, hk.quotedText (by simp) rfl, hread,
    hk.step ⟨.colon, .object members s :: st⟩ _ (by simp) rfl (by simp)]
  exact hk.step _ _ (by simp) rfl (by simp)

/-! ### Values -/

/-- What follows a value inside a container. -/
def Closes (cs : List Char) : Prop := ∃ c rest, cs = c :: rest ∧ (c = ',' ∨ c = ']' ∨ c = '\x7d')

omit hk in
theorem closes_rowAfter {α : Type} (f : α → List Char) {c : Char} (hc : c = ']' ∨ c = '\x7d')
    (cs : List Char) (l : List α) : Closes (rowAfter f [','] (c :: cs) l) := by
  cases l with
  | nil => exact ⟨c, cs, rfl, Or.inr hc⟩
  | cons a l => exact ⟨',', _, rfl, Or.inl rfl⟩

/-- What follows a number: it begins with a character that is no part of one. -/
def Ends (cs : List Char) : Prop :=
  ∃ c rest, cs = c :: rest ∧ ∀ part : NumberPart, part.next? c = none

omit hk in
theorem Closes.ends {cs : List Char} (h : Closes cs) : Ends cs := by
  obtain ⟨c, rest, rfl, hc⟩ := h
  refine ⟨c, rest, rfl, fun part => ?_⟩
  rcases hc with rfl | rfl | rfl <;> cases part <;> rfl

omit hk in
theorem mode_give (hst : st ≠ []) (j : Json) : (Reader.give st j).mode = .next := by
  obtain ⟨f, st, rfl⟩ := List.exists_cons_of_ne_nil hst
  cases f <;> rfl

omit hk in
theorem stack_give (hst : st ≠ []) (j : Json) : (Reader.give st j).stack ≠ [] := by
  obtain ⟨f, st, rfl⟩ := List.exists_cons_of_ne_nil hst
  cases f <;> simp [Reader.give]

omit hk in
theorem mode_give_ne (hst : st ≠ []) (j v : Json) : (Reader.give st j).mode ≠ .done v := by
  simp [mode_give hst]

/-- A number ends where something else comes. -/
theorem numberEnd {part : NumberPart} (hpart : part.complete) (hst : st ≠ []) (t : String)
    {cs : List Char} (hcs : Ends cs) :
    k ⟨.number part t, st⟩ cs = k (Reader.give st (.number t)) cs := by
  obtain ⟨c, rest, rfl, hc⟩ := hcs
  refine hk.same rest hst (stack_give hst _) ?_
  obtain ⟨f, st, rfl⟩ := List.exists_cons_of_ne_nil hst
  simp only [Reader.step?, hc part, hpart, if_true]
  cases f <;> rfl

theorem numberParts {part part' : NumberPart} (hst : st ≠ []) (t : String) {rest : List Char}
    (h : rest.foldlM NumberPart.next? part = some part') (cs : List Char) :
    k ⟨.number part t, st⟩ (rest ++ cs) = k ⟨.number part' (t ++ String.ofList rest), st⟩ cs := by
  induction rest generalizing part t with
  | nil =>
    obtain rfl : part = part' := Option.some_inj.mp h
    simp
  | cons c rest ih =>
    rw [List.foldlM_cons, Option.bind_eq_bind, Option.bind_eq_some_iff] at h
    obtain ⟨next, hnext, h⟩ := h
    have hstep : Reader.step? ⟨.number part t, st⟩ c = some ⟨.number next (t.push c), st⟩ := by
      simp only [Reader.step?, hnext]
    have hread : t.push c ++ String.ofList rest = t ++ String.ofList (c :: rest) := by
      apply String.toList_inj.mp
      simp
    rw [List.cons_append, hk.step _ _ hst hstep (by simp), ih _ h, hread]

theorem numberValue {t : String} (h : IsNumber t) (hst : st ≠ []) {cs : List Char}
    (hcs : Ends cs) :
    k ⟨.value, st⟩ (t.toList ++ cs) = k (Reader.give st (.number t)) cs := by
  obtain ⟨c, rest, start, part, htoList, hstart, hrest, hpart⟩ := h
  have hstep : Reader.step? ⟨.value, st⟩ c = some ⟨.number start (String.singleton c), st⟩ := by
    unfold NumberPart.first? at hstart
    split at hstart
    · obtain rfl : c = '-' := by simpa using ‹(c == '-') = true›
      obtain rfl := Option.some_inj.mp hstart
      rfl
    split at hstart
    · obtain rfl : c = '0' := by simpa using ‹(c == '0') = true›
      obtain rfl := Option.some_inj.mp hstart
      rfl
    split at hstart
    · rename_i hminus hzero hdigit
      obtain rfl := Option.some_inj.mp hstart
      have hne : ∀ d, ¬ ('1' ≤ d ∧ d ≤ '9') → c ≠ d := by
        rintro d hd rfl
        exact hd (by simpa using hdigit)
      have hdigit : '1' ≤ c ∧ c ≤ '9' := by simpa using hdigit
      simp [Reader.step?, Reader.startValue?, isSpace, hne ' ' (by decide), hne '\t' (by decide),
        hne '\n' (by decide), hne '\r' (by decide), hne '"' (by decide), hne '[' (by decide),
        hne '\x7b' (by decide), hne '-' (by decide), hne '0' (by decide), hdigit]
    · cases hstart
  have hread : String.singleton c ++ String.ofList rest = t := by
    apply String.toList_inj.mp
    simp [htoList]
  rw [htoList, List.cons_append, hk.step _ _ hst hstep (by simp), hk.numberParts hst _ hrest,
    hread, hk.numberEnd hpart hst _ hcs]

omit hk in
/-- How the written forms of documents begin. -/
theorem exists_head {j : Json} (h : j.Readable) :
    ∃ c rest, j.chars = c :: rest ∧ isSpace c = false ∧ c ≠ ']' := by
  cases h with
  | null => exact ⟨'n', _, rfl, rfl, by decide⟩
  | bool b =>
    cases b with
    | false => exact ⟨'f', _, rfl, rfl, by decide⟩
    | true => exact ⟨'t', _, rfl, rfl, by decide⟩
  | @number t h =>
    obtain ⟨c, rest, start, _, htoList, hstart, _, _⟩ := h
    refine ⟨c, rest, htoList, ?_, ?_⟩
    · by_contra hspace
      have hc : c = ' ' ∨ c = '\t' ∨ c = '\n' ∨ c = '\r' := by
        simpa only [isSpace, Bool.not_eq_false, Bool.or_eq_true, beq_iff_eq, or_assoc] using hspace
      rcases hc with rfl | rfl | rfl | rfl <;> simp [NumberPart.first?] at hstart
    · rintro rfl
      simp [NumberPart.first?] at hstart
  | string s => exact ⟨'"', _, by rw [chars, text, Text.toList_quotedText]; rfl, rfl, by decide⟩
  | @array items _ =>
    exact ⟨'[', _, (List.append_nil _).symm.trans (chars_array items []), rfl, by decide⟩
  | @object members _ =>
    exact ⟨'\x7b', _, (List.append_nil _).symm.trans (chars_object members []), rfl, by decide⟩

/-- The written form of a document, inside a container, is read as it. -/
def ReadsBack (k : Reader → List Char → Option Json) (j : Json) : Prop :=
  ∀ (st : List Frame), st ≠ [] → st.length ≤ maxDepth → ∀ {cs : List Char}, Closes cs →
    k ⟨.value, st⟩ (j.chars ++ cs) =
      if st.length + j.depth ≤ maxDepth then k (Reader.give st j) cs else none

theorem itemsAfter {items : List Json} (acc : List Json) (h : ∀ j ∈ items, ReadsBack k j)
    (hst : st.length < maxDepth) (cs : List Char) :
    k ⟨.next, .array acc :: st⟩ (rowAfter chars [','] (']' :: cs) items) =
      if st.length + 1 + itemsDepth items ≤ maxDepth then
        k ⟨.next, .array (items.reverse ++ acc) :: st⟩ (']' :: cs)
      else none := by
  induction items generalizing acc with
  | nil =>
    rw [if_pos (by simp only [itemsDepth]; omega)]
    rfl
  | cons j items ih =>
    rw [List.forall_mem_cons] at h
    have hcomma : Reader.step? ⟨.next, .array acc :: st⟩ ',' = some ⟨.value, .array acc :: st⟩ := rfl
    have hrest := ih (j :: acc) h.2
    rw [rowAfter, List.singleton_append, hk.step _ _ (by simp) hcomma (by simp),
      h.1 (.array acc :: st) (by simp) hst (closes_rowAfter chars (Or.inl rfl) cs items),
      Reader.give, hrest]
    simp only [List.length_cons, itemsDepth, List.reverse_cons, List.append_assoc,
      List.singleton_append, ← ite_and]
    refine if_congr ?_ rfl rfl
    omega

theorem items {items : List Json} (hitems : ∀ j ∈ items, j.Readable)
    (h : ∀ j ∈ items, ReadsBack k j) (hst : st.length < maxDepth) (cs : List Char) :
    k ⟨.firstItem, .array [] :: st⟩ (row chars [','] (']' :: cs) items) =
      if st.length + 1 + itemsDepth items ≤ maxDepth then
        k ⟨.next, .array items.reverse :: st⟩ (']' :: cs)
      else none := by
  cases items with
  | nil =>
    rw [if_pos (by simp only [itemsDepth]; omega)]
    exact hk.same cs (by simp) (by simp) rfl
  | cons j items =>
    rw [List.forall_mem_cons] at h
    obtain ⟨c, rest, hchars, hspace, hclose⟩ := exists_head (hitems j List.mem_cons_self)
    -- the first item is read as any other value
    have hfirst : k ⟨.firstItem, .array [] :: st⟩ (row chars [','] (']' :: cs) (j :: items)) =
        k ⟨.value, .array [] :: st⟩ (row chars [','] (']' :: cs) (j :: items)) := by
      rw [row, hchars, List.cons_append]
      exact hk.same _ (by simp) (by simp) (by simp [Reader.step?, hspace, hclose])
    have hrest := hk.itemsAfter [j] h.2 hst cs
    rw [hfirst, row,
      h.1 (.array [] :: st) (by simp) hst (closes_rowAfter chars (Or.inl rfl) cs items),
      Reader.give, hrest]
    simp only [List.length_cons, itemsDepth, List.reverse_cons, ← ite_and]
    refine if_congr ?_ rfl rfl
    omega

theorem member {m : String × Json} (h : ReadsBack k m.2) {members : List (String × Json)}
    {old : String} {mode : Mode} (hmode : mode = .name ∨ mode = .firstName)
    (hst : st.length < maxDepth) {cs : List Char} (hcs : Closes cs) :
    k ⟨mode, .object members old :: st⟩ (memberChars m ++ cs) =
      if st.length + 1 + m.2.depth ≤ maxDepth then
        k ⟨.next, .object (m :: members) "" :: st⟩ cs
      else none := by
  rw [memberChars, List.append_assoc, List.cons_append, hk.name hmode,
    h (.object members m.1 :: st) (by simp) hst hcs]
  rfl

theorem membersAfter {members : List (String × Json)} (acc : List (String × Json))
    (h : ∀ m ∈ members, ReadsBack k m.2)
    (hst : st.length < maxDepth) (cs : List Char) :
    k ⟨.next, .object acc "" :: st⟩ (rowAfter memberChars [','] ('\x7d' :: cs) members) =
      if st.length + 1 + membersDepth members ≤ maxDepth then
        k ⟨.next, .object (members.reverse ++ acc) "" :: st⟩ ('\x7d' :: cs)
      else none := by
  induction members generalizing acc with
  | nil =>
    rw [if_pos (by simp only [membersDepth]; omega)]
    rfl
  | cons m members ih =>
    rw [List.forall_mem_cons] at h
    have hcomma : Reader.step? ⟨.next, .object acc "" :: st⟩ ',' =
        some ⟨.name, .object acc "" :: st⟩ := rfl
    have hrest := ih (m :: acc) h.2
    rw [rowAfter, List.singleton_append, hk.step _ _ (by simp) hcomma (by simp),
      hk.member h.1 (Or.inl rfl) hst (closes_rowAfter _ (Or.inr rfl) cs members), hrest]
    simp only [membersDepth, List.reverse_cons, List.append_assoc, List.singleton_append, ← ite_and]
    refine if_congr ?_ rfl rfl
    omega

theorem members {members : List (String × Json)} (h : ∀ m ∈ members, ReadsBack k m.2)
    (hst : st.length < maxDepth) (cs : List Char) :
    k ⟨.firstName, .object [] "" :: st⟩ (row memberChars [','] ('\x7d' :: cs) members) =
      if st.length + 1 + membersDepth members ≤ maxDepth then
        k ⟨.next, .object members.reverse "" :: st⟩ ('\x7d' :: cs)
      else none := by
  cases members with
  | nil =>
    rw [if_pos (by simp only [membersDepth]; omega)]
    exact hk.same cs (by simp) (by simp) rfl
  | cons m members =>
    rw [List.forall_mem_cons] at h
    have hrest := hk.membersAfter [m] h.2 hst cs
    rw [row, hk.member h.1 (Or.inr rfl) hst (closes_rowAfter _ (Or.inr rfl) cs members), hrest]
    simp only [membersDepth, List.reverse_cons, ← ite_and]
    refine if_congr ?_ rfl rfl
    omega

theorem word {c : Char} {rest : List Char} {v : Json} (hst : st ≠ []) (hrest : rest ≠ [])
    (h : Reader.step? ⟨.value, st⟩ c = some ⟨.word rest v, st⟩) (cs : List Char) :
    k ⟨.value, st⟩ (c :: rest ++ cs) = k (Reader.give st v) cs := by
  rw [List.cons_append, hk.step _ _ hst h (by simp)]
  clear h
  induction rest with
  | nil => exact absurd rfl hrest
  | cons d rest ih =>
    cases rest with
    | nil => exact hk.step _ _ hst (by simp [Reader.step?]) (mode_give_ne hst v)
    | cons e rest =>
      rw [List.cons_append, hk.step ⟨.word (e :: rest) v, st⟩ _ hst (by simp [Reader.step?]) (by simp)]
      exact ih (by simp)

theorem stringValue (hst : st ≠ []) (s : String) (cs : List Char) :
    k ⟨.value, st⟩ ((Json.quotedText s).toList ++ cs) = k (Reader.give st (.string s)) cs := by
  have hread : ("" : String) ++ String.ofList s.toList = s := by simp
  rw [Json.quotedText, String.toList_ofList, List.cons_append, List.append_assoc,
    hk.step ⟨.text ⟨false, "", none⟩, st⟩ _ hst rfl (by simp), List.singleton_append,
    hk.quotedText hst rfl, hread]
  exact hk.step _ _ hst rfl (mode_give_ne hst _)

/-- **Inside a container, what is written is read back**, unless it is nested
too deep. -/
theorem value {j : Json} (h : j.Readable) : ReadsBack k j := by
  induction h with
  | null =>
    intro st hst hle cs _
    rw [depth, Nat.add_zero, if_pos hle]
    exact hk.word hst (by simp) rfl cs
  | bool b =>
    intro st hst hle cs _
    rw [depth, Nat.add_zero, if_pos hle]
    cases b with
    | false => exact hk.word hst (by simp) rfl cs
    | true => exact hk.word hst (by simp) rfl cs
  | number h =>
    intro st hst hle cs hcs
    rw [depth, Nat.add_zero, if_pos hle]
    exact hk.numberValue h hst hcs.ends
  | string s =>
    intro st hst hle cs _
    rw [depth, Nat.add_zero, if_pos hle]
    exact hk.stringValue hst s cs
  | @array items hitems ih =>
    intro st hst hle cs _
    have hstep : Reader.step? ⟨.value, st⟩ '[' = Reader.open? st (.array []) .firstItem := rfl
    rw [chars_array, depth]
    by_cases hroom : st.length < maxDepth
    · rw [Reader.open?, if_pos hroom] at hstep
      rw [hk.step _ _ hst hstep (by simp), hk.items hitems ih hroom]
      refine if_congr (by omega) ?_ rfl
      rw [hk.step (Reader.give st (.array items)) cs (by simp) (by simp [Reader.step?,
        Reader.afterValue?, isSpace, Reader.close?]) (mode_give_ne hst _)]
    · rw [Reader.open?, if_neg hroom] at hstep
      rw [hk.fail _ hst hstep, if_neg (by omega)]
  | @object members _ ih =>
    intro st hst hle cs _
    have hstep : Reader.step? ⟨.value, st⟩ '\x7b' = Reader.open? st (.object [] "") .firstName := rfl
    rw [chars_object, depth]
    by_cases hroom : st.length < maxDepth
    · rw [Reader.open?, if_pos hroom] at hstep
      rw [hk.step _ _ hst hstep (by simp), hk.members ih hroom]
      refine if_congr (by omega) ?_ rfl
      rw [hk.step (Reader.give st (.object members)) cs (by simp) (by simp [Reader.step?,
        Reader.afterValue?, isSpace, Reader.close?]) (mode_give_ne hst _)]
    · rw [Reader.open?, if_neg hroom] at hstep
      rw [hk.fail _ hst hstep, if_neg (by omega)]

end Follows

/-! ### Whole texts -/

theorem start_object :
    Reader.step? {} '\x7b' = some ⟨.firstName, [.object [] ""]⟩ := rfl

theorem end_object (members : List (String × Json)) :
    Reader.step? ⟨.next, [.object members.reverse ""]⟩ '\x7d' =
      some ⟨.done (.object members), []⟩ := by
  simp [Reader.step?, Reader.afterValue?, isSpace, Reader.close?, Reader.give]

/-- A written object is read back as it is. -/
theorem parse?_text {members : List (String × Json)} (h : ∀ m ∈ members, m.2.Readable) :
    parse? (object members).text =
      if (object members).depth ≤ maxDepth then some (object members) else none := by
  have hchars : (object members).text.toList = _ := (List.append_nil _).symm.trans
    (chars_object members [])
  rw [parse?, hchars, Reader.run, start_object]
  change Reader.run _ _ = _
  rw [follows_run.members (fun m hm => follows_run.value (h m hm)) (by decide), depth,
    List.length_nil]
  refine if_congr (by omega) ?_ rfl
  rw [run_cons (by simp), end_object]
  rfl

/-- A written object at the front of a text is read back as it is. -/
theorem parseFirst?_text {members : List (String × Json)} (h : ∀ m ∈ members, m.2.Readable) :
    parseFirst? (object members).text =
      if (object members).depth ≤ maxDepth then some (object members) else none := by
  have hchars : (object members).text.toList = _ := (List.append_nil _).symm.trans
    (chars_object members [])
  rw [parseFirst?, hchars, Reader.runFirst, start_object]
  change Reader.runFirst _ _ = _
  rw [follows_runFirst.members (fun m hm => follows_runFirst.value (h m hm)) (by decide), depth,
    List.length_nil]
  refine if_congr (by omega) ?_ rfl
  rw [Reader.runFirst, end_object]

/-! ### The depth of what is read -/

/-- What a frame holds. -/
def Frame.values : Frame → List Json
  | array items => items
  | object members _ => members.map (·.2)

/-- What the open containers hold still fits into them. -/
def Fits : List Frame → Prop
  | [] => True
  | f :: rest => (∀ j ∈ f.values, j.depth + (rest.length + 1) ≤ maxDepth) ∧
      rest.length + 1 ≤ maxDepth ∧ Fits rest

/-- The reader holds nothing that is nested too deep. -/
def Reader.Fits (r : Reader) : Prop :=
  Json.Fits r.stack ∧ match r.mode with
    | .done v => v.depth ≤ maxDepth
    | .word _ v => v.depth = 0
    | _ => True

theorem fits_give {st : List Frame} (hst : Fits st) {v : Json}
    (hv : v.depth + st.length ≤ maxDepth) : (Reader.give st v).Fits := by
  match st with
  | [] => exact ⟨trivial, hv⟩
  | .array items :: rest =>
    obtain ⟨hitems, hlen, hrest⟩ := hst
    exact ⟨⟨List.forall_mem_cons.mpr ⟨hv, hitems⟩, hlen, hrest⟩, trivial⟩
  | .object members name :: rest =>
    obtain ⟨hmembers, hlen, hrest⟩ := hst
    exact ⟨⟨List.forall_mem_cons.mpr ⟨hv, hmembers⟩, hlen, hrest⟩, trivial⟩

theorem length_le_of_fits {st : List Frame} (h : Fits st) : st.length ≤ maxDepth := by
  cases st with
  | nil => exact Nat.zero_le _
  | cons f rest => exact h.2.1

theorem fits_scalar {st : List Frame} (hst : Fits st) {v : Json} (hv : v.depth = 0) :
    (Reader.give st v).Fits :=
  fits_give hst (by have := length_le_of_fits hst; omega)

theorem fits_close? {st : List Frame} (hst : Fits st) {c : Char} {r : Reader}
    (h : Reader.close? st c = some r) : r.Fits := by
  unfold Reader.close? at h
  split at h
  · rename_i items rest
    obtain rfl := Option.some_inj.mp h
    obtain ⟨hitems, hlen, hrest⟩ := hst
    have hle : itemsDepth items.reverse ≤ maxDepth - (rest.length + 1) :=
      itemsDepth_le.mpr fun j hj => Nat.le_sub_of_add_le (hitems j (List.mem_reverse.mp hj))
    refine fits_give hrest ?_
    rw [depth]
    omega
  · rename_i members _ rest
    obtain rfl := Option.some_inj.mp h
    obtain ⟨hmembers, hlen, hrest⟩ := hst
    have hle : membersDepth members.reverse ≤ maxDepth - (rest.length + 1) :=
      membersDepth_le.mpr fun m hm => Nat.le_sub_of_add_le
        (hmembers m.2 (List.mem_map_of_mem (List.mem_reverse.mp hm)))
    refine fits_give hrest ?_
    rw [depth]
    omega
  · cases h

theorem fits_open? {st : List Frame} (hst : Fits st) {f : Frame} (hf : f.values = []) {m : Mode}
    {r : Reader} (hm : m = .firstItem ∨ m = .firstName) (h : Reader.open? st f m = some r) :
    r.Fits := by
  unfold Reader.open? at h
  split at h
  · rename_i hlt
    obtain rfl := Option.some_inj.mp h
    have hstack : Fits (f :: st) := ⟨by simp [hf], hlt, hst⟩
    rcases hm with rfl | rfl
    · exact ⟨hstack, trivial⟩
    · exact ⟨hstack, trivial⟩
  · cases h

theorem fits_startValue? {st : List Frame} (hst : Fits st) {c : Char} {r : Reader}
    (h : Reader.startValue? st c = some r) : r.Fits := by
  unfold Reader.startValue? at h
  split at h
  · obtain rfl := Option.some_inj.mp h
    exact ⟨hst, trivial⟩
  split at h
  · exact fits_open? hst rfl (Or.inl rfl) h
  split at h
  · exact fits_open? hst rfl (Or.inr rfl) h
  iterate 3
    split at h
    · obtain rfl := Option.some_inj.mp h
      exact ⟨hst, trivial⟩
  iterate 3
    split at h
    · obtain rfl := Option.some_inj.mp h
      exact ⟨hst, by simp [depth]⟩
  cases h

theorem fits_afterValue? {st : List Frame} (hst : Fits st) {c : Char} {r : Reader}
    (h : Reader.afterValue? st c = some r) : r.Fits := by
  unfold Reader.afterValue? at h
  split at h
  · obtain rfl := Option.some_inj.mp h
    exact ⟨hst, trivial⟩
  split at h
  · split at h
    · obtain rfl := Option.some_inj.mp h
      exact ⟨hst, trivial⟩
    · obtain rfl := Option.some_inj.mp h
      exact ⟨hst, trivial⟩
    · cases h
  · exact fits_close? hst h

theorem fits_endText {st : List Frame} (hst : Fits st) (t : PartialText) :
    (Reader.endText st t).Fits := by
  have hgive := fits_scalar hst (v := .string t.settle.read) (by simp [depth])
  unfold Reader.endText
  dsimp only
  split
  · split
    · exact ⟨hst, trivial⟩
    · exact hgive
  · exact hgive

/-- A step keeps what fits. -/
theorem fits_step? {r r' : Reader} (hr : r.Fits) {c : Char} (h : r.step? c = some r') : r'.Fits := by
  obtain ⟨m, st⟩ := r
  obtain ⟨hst, hmode⟩ := hr
  have hsame : ∀ {m : Mode}, some (⟨m, st⟩ : Reader) = some r' →
      (⟨m, st⟩ : Reader).Fits → r'.Fits := fun h hfits => Option.some_inj.mp h ▸ hfits
  cases m with
  | value =>
    simp only [Reader.step?] at h
    split at h
    · exact hsame h ⟨hst, trivial⟩
    · exact fits_startValue? hst h
  | firstItem =>
    simp only [Reader.step?] at h
    split at h
    · exact hsame h ⟨hst, trivial⟩
    split at h
    · exact fits_close? hst h
    · exact fits_startValue? hst h
  | firstName =>
    simp only [Reader.step?] at h
    split at h
    · exact hsame h ⟨hst, trivial⟩
    split at h
    · exact fits_close? hst h
    split at h
    · exact hsame h ⟨hst, trivial⟩
    · cases h
  | name =>
    simp only [Reader.step?] at h
    split at h
    · exact hsame h ⟨hst, trivial⟩
    split at h
    · exact hsame h ⟨hst, trivial⟩
    · cases h
  | colon =>
    simp only [Reader.step?] at h
    split at h
    · exact hsame h ⟨hst, trivial⟩
    split at h
    · exact hsame h ⟨hst, trivial⟩
    · cases h
  | next => exact fits_afterValue? hst h
  | text t =>
    simp only [Reader.step?] at h
    split at h
    · exact Option.some_inj.mp h ▸ fits_endText hst t
    split at h
    · exact hsame h ⟨hst, trivial⟩
    split at h
    · cases h
    · exact hsame h ⟨hst, trivial⟩
  | escape t =>
    simp only [Reader.step?] at h
    split at h
    · exact hsame h ⟨hst, trivial⟩
    · obtain ⟨d, -, rfl⟩ := Option.map_eq_some_iff.mp h
      exact ⟨hst, trivial⟩
  | unit t missing value =>
    simp only [Reader.step?] at h
    split at h
    · split at h
      · exact hsame h ⟨hst, trivial⟩
      · exact hsame h ⟨hst, trivial⟩
    · cases h
  | number part t =>
    simp only [Reader.step?] at h
    split at h
    · exact hsame h ⟨hst, trivial⟩
    split at h
    · have hgive := fits_scalar hst (v := .number t) (by simp [depth])
      split at h
      · rename_i stack heq
        rw [heq] at hgive
        exact fits_afterValue? hgive.1 h
      · exact Option.some_inj.mp h ▸ hgive
    · cases h
  | word rest v =>
    simp only [Reader.step?] at h
    split at h
    · cases h
    · split at h
      · exact Option.some_inj.mp h ▸ fits_scalar hst hmode
      · cases h
    · split at h
      · exact hsame h ⟨hst, hmode⟩
      · cases h
  | done v =>
    simp only [Reader.step?] at h
    split at h
    · exact hsame h ⟨hst, hmode⟩
    · cases h

theorem depth_le_of_run {r : Reader} (hr : r.Fits) {cs : List Char} {j : Json}
    (h : r.run cs = some j) : j.depth ≤ maxDepth := by
  induction cs generalizing r with
  | nil =>
    rw [Reader.run] at h
    split at h
    · rename_i v _ hstep
      obtain rfl := Option.some_inj.mp h
      exact (fits_step? hr hstep).2
    · cases h
  | cons c cs ih =>
    rw [Reader.run] at h
    split at h
    · rename_i r' hstep
      split at h
      · split at h
        · exact ih (fits_step? hr hstep) h
        · cases h
      · exact ih (fits_step? hr hstep) h
    · cases h

/-- What is read is not nested too deep. -/
theorem depth_le_of_parse? {s : String} {j : Json} (h : parse? s = some j) : j.depth ≤ maxDepth :=
  depth_le_of_run (by exact ⟨trivial, trivial⟩) h

end SolidityCanvas.Json
