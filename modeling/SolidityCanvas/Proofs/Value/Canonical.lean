/-
What the canonical text of a value says.

`Value.Plain` are the values that a document describes, and those that
properties have.  They hold texts, truth values, some numbers, `null`, and
collections of these, where all sequences are of one form.

* `toJson?_inj`: the JSON form of such a value determines it, if the texts of
  the numbers do;
* `told_callChars`: so does the form as a call;
* `told_canonicalChars`: hence so does the canonical text, and it shows where it
  ends;
* `Bag.canonical_inj`: and so does the canonical text of named values.
-/
import Mathlib.Data.List.Forall2
import Mathlib.Data.Set.Basic
import SolidityCanvas.Property.Bag
import SolidityCanvas.Proofs.Json.Written

namespace SolidityCanvas

/-- Numbers of a set are known by how they are written. -/
def Number.Distinct (N : Set Number) : Prop :=
  ∀ m ∈ N, ∀ n ∈ N, m.text = n.text ∨ m.display = n.display → m = n

namespace Value

open Number (IsNumeral)
open Text (Told Opens Stops row rowAfter)

/-- Values that hold numbers of a set and sequences of one form: tuples, or
lists of some primitive type. -/
inductive Plain (N : Set Number) (form : Option ValueType) : Value → Prop
  | string (s : String) : Plain N form (string s)
  | number {n : Number} (h : n ∈ N) : Plain N form (number n)
  | bool (b : Bool) : Plain N form (bool b)
  | null : Plain N form (null .dynamic)
  | tuple {items : List Value} (hform : form = none) (h : ∀ v ∈ items, Plain N form v) :
      Plain N form (tuple items)
  | list {t : ValueType} {items : List Value} (hform : form = some t) (ht : t.isPrimitive)
      (h : ∀ v ∈ items, Plain N form v) : Plain N form (list t items)
  | object {entries : List (String × Value)} (h : ∀ e ∈ entries, Plain N form e.2) :
      Plain N form (object entries)

variable {N : Set Number} {form : Option ValueType} {v w : Value}

theorem Plain.mono {M : Set Number} (hMN : M ⊆ N) (h : Plain M form v) : Plain N form v := by
  induction h with
  | string s => exact .string s
  | number hn => exact .number (hMN hn)
  | bool b => exact .bool b
  | null => exact .null
  | tuple hform _ ih => exact .tuple hform ih
  | list hform ht _ ih => exact .list hform ht ih
  | object _ ih => exact .object ih

/-! ### JSON forms -/

theorem itemsToJson?_eq_some : ∀ {items : List Value} {js : List Json},
    itemsToJson? items = some js ↔ List.Forall₂ (fun v j => v.toJson? = some j) items js := by
  intro items
  induction items with
  | nil =>
    intro js
    rw [itemsToJson?, List.forall₂_nil_left_iff, Option.some_inj, eq_comm]
  | cons v items ih =>
    intro js
    simp only [itemsToJson?, Option.bind_eq_bind, Option.bind_eq_some_iff, Option.pure_def,
      Option.some_inj, List.forall₂_cons_left_iff, ih]
    constructor
    · rintro ⟨j, hj, js', hjs, rfl⟩
      exact ⟨j, js', hj, hjs, rfl⟩
    · rintro ⟨j, js', hj, hjs, rfl⟩
      exact ⟨j, hj, js', hjs, rfl⟩

theorem entriesToJson?_eq_some : ∀ {entries : List (String × Value)}
    {members : List (String × Json)}, entriesToJson? entries = some members ↔
      List.Forall₂ (fun e m => e.1 = m.1 ∧ e.2.toJson? = some m.2) entries members := by
  intro entries
  induction entries with
  | nil =>
    intro members
    rw [entriesToJson?, List.forall₂_nil_left_iff, Option.some_inj, eq_comm]
  | cons e entries ih =>
    intro members
    obtain ⟨n, v⟩ := e
    simp only [entriesToJson?, Option.bind_eq_bind, Option.bind_eq_some_iff, Option.pure_def,
      Option.some_inj, List.forall₂_cons_left_iff, ih]
    constructor
    · rintro ⟨j, hj, rest, hrest, rfl⟩
      exact ⟨(n, j), rest, ⟨rfl, hj⟩, hrest, rfl⟩
    · rintro ⟨⟨m, j⟩, rest, ⟨rfl, hj⟩, hrest, rfl⟩
      exact ⟨j, hj, rest, hrest, rfl⟩

/-- The JSON form of a plain value writes its numbers as numerals. -/
theorem Plain.numerals (hv : Plain N form v) : ∀ {j : Json}, v.toJson? = some j → j.Numerals := by
  induction hv with
  | string s =>
    rintro j ⟨⟩
    exact .string s
  | @number n _ =>
    intro j hj
    cases n with
    | finite b =>
      obtain rfl := Option.some_inj.mp hj
      exact .number b.toList_text_ne_nil b.isNumeral_of_mem_text
    | infinite negative => exact absurd hj (by simp [toJson?])
  | bool b =>
    rintro j ⟨⟩
    exact .bool b
  | null =>
    rintro j ⟨⟩
    exact .null
  | tuple _ _ ih | list _ _ _ ih =>
    intro j hj
    obtain ⟨js, hjs, rfl⟩ := Option.map_eq_some_iff.mp hj
    refine .array fun k hk => ?_
    obtain ⟨v, hv, hvk⟩ := exists_mem_of_forall₂ (itemsToJson?_eq_some.mp hjs) k hk
    exact ih v hv hvk
  | object _ ih =>
    intro j hj
    obtain ⟨members, hmembers, rfl⟩ := Option.map_eq_some_iff.mp hj
    refine .object fun m hm => ?_
    obtain ⟨e, he, hem⟩ := exists_mem_of_forall₂ (entriesToJson?_eq_some.mp hmembers) m hm
    exact ih e he hem.2

/-- **The JSON form of a plain value determines it.** -/
theorem Plain.toJson?_inj (hN : ∀ m ∈ N, ∀ n ∈ N, m.text = n.text → m = n) (hv : Plain N form v) :
    ∀ {w : Value}, Plain N form w → ∀ {j : Json}, v.toJson? = some j → w.toJson? = some j →
      v = w := by
  induction hv with
  | string s =>
    rintro w hw j ⟨⟩ hj
    cases hw with
    | string t => simpa [toJson?] using hj.symm
    | @number n _ => cases n <;> simp [toJson?] at hj
    | _ => simp [toJson?] at hj
  | @number m hm =>
    intro w hw j hj hj'
    cases m with
    | infinite negative => exact absurd hj (by simp [toJson?])
    | finite a =>
      obtain rfl := Option.some_inj.mp hj
      cases hw with
      | @number n hn =>
        cases n with
        | infinite negative => exact absurd hj' (by simp [toJson?])
        | finite b =>
          have htext : b.text = a.text := by simpa [toJson?] using hj'
          exact congrArg Value.number (hN _ hm _ hn htext.symm)
      | _ => simp [toJson?] at hj'
  | bool b =>
    rintro w hw j ⟨⟩ hj
    cases hw with
    | bool c => simpa [toJson?] using hj.symm
    | @number n _ => cases n <;> simp [toJson?] at hj
    | _ => simp [toJson?] at hj
  | null =>
    rintro w hw j ⟨⟩ hj
    cases hw with
    | null => rfl
    | @number n _ => cases n <;> simp [toJson?] at hj
    | _ => simp [toJson?] at hj
  | tuple hform _ ih =>
    intro w hw j hj hj'
    obtain ⟨js, hjs, rfl⟩ := Option.map_eq_some_iff.mp hj
    cases hw with
    | tuple _ hitems =>
      obtain ⟨_, hjs', hsame⟩ := Option.map_eq_some_iff.mp hj'
      obtain rfl := Json.array.inj hsame
      rw [eq_of_forall₂ (itemsToJson?_eq_some.mp hjs) (itemsToJson?_eq_some.mp hjs')
        fun a ha b hb k => ih a ha (hitems b hb)]
    -- Tuples and lists have the same JSON form, but not both occur.
    | list hform' => exact absurd (hform.symm.trans hform') (by simp)
    | @number n _ => cases n <;> simp [toJson?] at hj'
    | _ => simp [toJson?] at hj'
  | list hform _ _ ih =>
    intro w hw j hj hj'
    obtain ⟨js, hjs, rfl⟩ := Option.map_eq_some_iff.mp hj
    cases hw with
    | list hform' _ hitems =>
      obtain ⟨_, hjs', hsame⟩ := Option.map_eq_some_iff.mp hj'
      obtain rfl := Json.array.inj hsame
      -- The element type is not written; that there is one form tells it.
      obtain rfl := Option.some_inj.mp (hform.symm.trans hform')
      rw [eq_of_forall₂ (itemsToJson?_eq_some.mp hjs) (itemsToJson?_eq_some.mp hjs')
        fun a ha b hb k => ih a ha (hitems b hb)]
    | tuple hform' => exact absurd (hform'.symm.trans hform) (by simp)
    | @number n _ => cases n <;> simp [toJson?] at hj'
    | _ => simp [toJson?] at hj'
  | object _ ih =>
    intro w hw j hj hj'
    obtain ⟨members, hmembers, rfl⟩ := Option.map_eq_some_iff.mp hj
    cases hw with
    | object hentries =>
      obtain ⟨_, hmembers', hsame⟩ := Option.map_eq_some_iff.mp hj'
      obtain rfl := Json.object.inj hsame
      rw [eq_of_forall₂ (entriesToJson?_eq_some.mp hmembers) (entriesToJson?_eq_some.mp hmembers')
        fun a ha b hb k hak hbk =>
          Prod.ext (hak.1.trans hbk.1.symm) (ih a ha (hentries b hb) hak.2 hbk.2)]
    | @number n _ => cases n <;> simp [toJson?] at hj'
    | _ => simp [toJson?] at hj'

/-! ### Calls -/

theorem display_string (s : String) :
    (string s).display = "cty.StringVal(" ++ Text.quoted s ++ ")" := rfl

theorem display_number (n : Number) : (number n).display = n.display := rfl

theorem display_null (t : ValueType) : (null t).display = "cty.NullVal(" ++ t.display ++ ")" := rfl

theorem display_tuple (v : Value) (items : List Value) : (tuple (v :: items)).display =
    "cty.TupleVal([]cty.Value\x7b" ++ displayList (v :: items) ++ "\x7d)" := rfl

theorem display_list_nil (t : ValueType) :
    (list t []).display = "cty.ListValEmpty(" ++ t.display ++ ")" := rfl

theorem display_list (t : ValueType) (v : Value) (items : List Value) :
    (list t (v :: items)).display =
      "cty.ListVal([]cty.Value\x7b" ++ displayList (v :: items) ++ "\x7d)" := rfl

theorem display_object (e : String × Value) (entries : List (String × Value)) :
    (object (e :: entries)).display =
      "cty.ObjectVal(map[string]cty.Value\x7b" ++ displayEntries (e :: entries) ++ "\x7d)" := rfl

/-- The characters of a value as a call. -/
def callChars (v : Value) : List Char := v.display.toList

/-- The characters of a named value as part of a call. -/
def entryChars (e : String × Value) : List Char :=
  (Text.quoted e.1).toList ++ ':' :: e.2.callChars

theorem displayList_append (items : List Value) (close : List Char) :
    (displayList items).toList ++ close = row callChars [',', ' '] close items := by
  refine Text.append_eq_row (g := fun items => (displayList items).toList) ?_ ?_ ?_ close items
  · rw [displayList]
    rfl
  · intro v
    rw [displayList]
    rfl
  · intro v w rest
    rw [displayList]
    simp [callChars]

theorem displayEntries_append (entries : List (String × Value)) (close : List Char) :
    (displayEntries entries).toList ++ close = row entryChars [',', ' '] close entries := by
  refine Text.append_eq_row (g := fun entries => (displayEntries entries).toList) ?_ ?_ ?_
    close entries
  · rw [displayEntries]
    rfl
  · rintro ⟨n, v⟩
    rw [displayEntries]
    simp [entryChars, callChars]
  · rintro ⟨n, v⟩ e rest
    rw [displayEntries]
    simp [entryChars, callChars]

/-- The kinds of values that their calls tell apart. -/
def kind : Value → Nat × Bool
  | string _ => (0, false)
  | number _ => (1, false)
  | bool b => (2, b)
  | null _ => (3, false)
  | tuple items => (4, items.isEmpty)
  | list _ items => (5, items.isEmpty)
  | object entries => (6, entries.isEmpty)
  | _ => (7, false)

/-- The kind of the values whose calls go on with some characters after the
first. -/
def kindOf (cs : List Char) : Nat × Bool :=
  match cs.drop 3 with
  | 'S' :: _ => (0, false)
  | 'N' :: 'u' :: 'm' :: _ => (1, false)
  | 'M' :: _ => (1, false)
  | 'T' :: 'r' :: _ => (2, true)
  | 'F' :: _ => (2, false)
  | 'N' :: 'u' :: 'l' :: _ => (3, false)
  | 'E' :: _ :: _ :: _ :: _ :: 'T' :: _ => (4, true)
  | 'T' :: 'u' :: _ => (4, false)
  | 'L' :: _ :: _ :: _ :: _ :: _ :: _ :: 'E' :: _ => (5, true)
  | 'L' :: _ => (5, false)
  | 'E' :: _ :: _ :: _ :: _ :: 'O' :: _ => (6, true)
  | 'O' :: _ => (6, false)
  | _ => (7, false)

theorem Plain.callChars_eq (h : Plain N form v) :
    ∃ r, v.callChars = 'c' :: r ∧ ∀ s, kindOf (r ++ s) = v.kind := by
  cases h with
  | string u =>
    rw [callChars, display_string, String.toList_append, String.toList_append, List.append_assoc]
    exact ⟨_, rfl, fun _ => rfl⟩
  | @number n _ =>
    obtain ⟨head, hhead, body, heq, _⟩ := n.isCall_display
    rw [callChars, display_number, heq]
    simp only [Number.heads, List.mem_cons, List.not_mem_nil, or_false] at hhead
    rcases hhead with rfl | rfl | rfl <;> exact ⟨_, rfl, fun _ => rfl⟩
  | bool b => cases b <;> exact ⟨_, rfl, fun _ => rfl⟩
  | null =>
    rw [callChars, display_null, String.toList_append, String.toList_append, List.append_assoc]
    exact ⟨_, rfl, fun _ => rfl⟩
  | @tuple items _ _ =>
    cases items with
    | nil => exact ⟨_, rfl, fun _ => rfl⟩
    | cons w items =>
      rw [callChars, display_tuple, String.toList_append, String.toList_append, List.append_assoc]
      exact ⟨_, rfl, fun _ => rfl⟩
  | @list t items _ _ _ =>
    cases items with
    | nil =>
      rw [callChars, display_list_nil, String.toList_append, String.toList_append,
        List.append_assoc]
      exact ⟨_, rfl, fun _ => rfl⟩
    | cons w items =>
      rw [callChars, display_list, String.toList_append, String.toList_append, List.append_assoc]
      exact ⟨_, rfl, fun _ => rfl⟩
  | @object entries _ =>
    cases entries with
    | nil => exact ⟨_, rfl, fun _ => rfl⟩
    | cons e entries =>
      rw [callChars, display_object, String.toList_append, String.toList_append, List.append_assoc]
      exact ⟨_, rfl, fun _ => rfl⟩

theorem Plain.kind_eq (hv : Plain N form v) (hw : Plain N form w) {s t : List Char}
    (h : v.callChars ++ s = w.callChars ++ t) : v.kind = w.kind := by
  obtain ⟨r, hr, hkind⟩ := hv.callChars_eq
  obtain ⟨r', hr', hkind'⟩ := hw.callChars_eq
  rw [hr, hr'] at h
  have hrest : r ++ s = r' ++ t := (List.cons.inj h).2
  rw [← hkind s, hrest, hkind' t]

theorem Plain.opens_callChars (h : Plain N form v) : Opens '\x7d' v.callChars := by
  obtain ⟨r, hr, _⟩ := h.callChars_eq
  exact ⟨'c', by rw [hr]; rfl, by decide⟩

theorem opens_entryChars (e : String × Value) : Opens '\x7d' (entryChars e) := by
  refine ⟨'"', ?_, by decide⟩
  rw [entryChars, Text.toList_quoted]
  rfl

theorem told_entryChars {d e : String × Value} {p : Char → Prop}
    (h : Told p callChars d.2 e.2) : Told p entryChars d e := by
  intro s t hs ht heq
  simp only [entryChars, List.append_assoc, List.cons_append] at heq
  obtain ⟨hname, hrest⟩ := Text.prefixFree_quoted heq
  obtain ⟨hvalue, hst⟩ := h hs ht (List.cons.inj hrest).2
  exact ⟨Prod.ext hname hvalue, hst⟩

theorem displayList_inj {items items' : List Value}
    (htold : ∀ a ∈ items, ∀ b ∈ items', Told (fun _ => False) callChars a b)
    (h : ∀ a ∈ items, Plain N form a) (h' : ∀ b ∈ items', Plain N form b) {s t : List Char}
    (heq : (displayList items).toList ++ '\x7d' :: s = (displayList items').toList ++ '\x7d' :: t) :
    items = items' ∧ s = t := by
  rw [displayList_append, displayList_append] at heq
  exact Text.row_inj (by decide) not_false not_false htold (fun a ha => (h a ha).opens_callChars)
    (fun b hb => (h' b hb).opens_callChars) heq

theorem displayEntries_inj {entries entries' : List (String × Value)}
    (htold : ∀ d ∈ entries, ∀ e ∈ entries', Told (fun _ => False) callChars d.2 e.2)
    {s t : List Char} (heq : (displayEntries entries).toList ++ '\x7d' :: s =
      (displayEntries entries').toList ++ '\x7d' :: t) : entries = entries' ∧ s = t := by
  rw [displayEntries_append, displayEntries_append] at heq
  exact Text.row_inj (by decide) not_false not_false
    (fun d hd e he => told_entryChars (htold d hd e he)) (fun d _ => opens_entryChars d)
    (fun e _ => opens_entryChars e) heq

theorem toList_parts (a b c : String) (s : List Char) :
    (a ++ b ++ c).toList ++ s = a.toList ++ (b.toList ++ (c.toList ++ s)) := by
  simp

/-- **A plain value as a call shows what it is and where it ends.** -/
theorem Plain.told_callChars (hN : Number.Distinct N) (hv : Plain N form v) :
    ∀ {w : Value}, Plain N form w → Told (fun _ => False) callChars v w := by
  -- The head of the call says that the other value is of the same kind.
  induction hv with
  | string u =>
    intro w hw s t _ _ h
    have hkind := (Plain.string u).kind_eq hw h
    cases hw with
    | string u' =>
      rw [callChars, callChars, display_string, display_string, toList_parts, toList_parts] at h
      obtain ⟨huv, hst⟩ := Text.prefixFree_quoted (List.append_cancel_left h)
      exact ⟨congrArg Value.string huv, List.append_cancel_left hst⟩
    | _ => simp [kind] at hkind
  | @number m hm =>
    intro w hw s t _ _ h
    have hkind := (Plain.number hm).kind_eq hw h
    cases hw with
    | number hn =>
      obtain ⟨hmn, hst⟩ := Number.told_display h
      exact ⟨congrArg Value.number (hN _ hm _ hn (.inr hmn)), hst⟩
    | _ => simp [kind] at hkind
  | bool a =>
    intro w hw s t _ _ h
    have hkind := (Plain.bool a).kind_eq hw h
    cases hw with
    | bool b =>
      obtain rfl : a = b := (Prod.mk.inj hkind).2
      exact ⟨rfl, List.append_cancel_left h⟩
    | _ => simp [kind] at hkind
  | null =>
    intro w hw s t _ _ h
    have hkind := Plain.null.kind_eq hw h
    cases hw with
    | null => exact ⟨rfl, List.append_cancel_left h⟩
    | _ => simp [kind] at hkind
  | @tuple items hform hitems ih =>
    intro w hw s t _ _ h
    have hkind := (Plain.tuple hform hitems).kind_eq hw h
    cases hw with
    | @tuple items' _ hitems' =>
      cases items with
      | nil =>
        cases items' with
        | nil => exact ⟨rfl, List.append_cancel_left h⟩
        | cons _ _ => simp [kind] at hkind
      | cons a items =>
        cases items' with
        | nil => simp [kind] at hkind
        | cons b items' =>
          rw [callChars, callChars, display_tuple, display_tuple, toList_parts, toList_parts] at h
          obtain ⟨heq, hst⟩ := displayList_inj (fun a ha b hb => ih a ha (hitems' b hb)) hitems
            hitems' (List.append_cancel_left h)
          exact ⟨congrArg Value.tuple heq, (List.cons.inj hst).2⟩
    | _ => simp [kind] at hkind
  | @list t items hform ht hitems ih =>
    intro w hw s u _ _ h
    have hkind := (Plain.list hform ht hitems).kind_eq hw h
    cases hw with
    | @list t' items' hform' _ hitems' =>
      obtain rfl : t = t' := Option.some_inj.mp (hform.symm.trans hform')
      cases items with
      | nil =>
        cases items' with
        | nil => exact ⟨rfl, List.append_cancel_left h⟩
        | cons _ _ => simp [kind] at hkind
      | cons a items =>
        cases items' with
        | nil => simp [kind] at hkind
        | cons b items' =>
          rw [callChars, callChars, display_list, display_list, toList_parts, toList_parts] at h
          obtain ⟨heq, hst⟩ := displayList_inj (fun a ha b hb => ih a ha (hitems' b hb)) hitems
            hitems' (List.append_cancel_left h)
          exact ⟨congrArg (Value.list t) heq, (List.cons.inj hst).2⟩
    | _ => simp [kind] at hkind
  | @object entries hentries ih =>
    intro w hw s t _ _ h
    have hkind := (Plain.object hentries).kind_eq hw h
    cases hw with
    | @object entries' hentries' =>
      cases entries with
      | nil =>
        cases entries' with
        | nil => exact ⟨rfl, List.append_cancel_left h⟩
        | cons _ _ => simp [kind] at hkind
      | cons d entries =>
        cases entries' with
        | nil => simp [kind] at hkind
        | cons e entries' =>
          rw [callChars, callChars, display_object, display_object, toList_parts, toList_parts] at h
          obtain ⟨heq, hst⟩ := displayEntries_inj (fun d hd e he => ih d hd (hentries' e he))
            (List.append_cancel_left h)
          exact ⟨congrArg Value.object heq, (List.cons.inj hst).2⟩
    | _ => simp [kind] at hkind

theorem Plain.break_notMem_callChars (h : Plain N form v) {x : Char} (hx : Text.IsBreak x) :
    x ∉ v.callChars := by
  have hparts : ∀ {a b c : String}, x ∉ a.toList → x ∉ b.toList → x ∉ c.toList →
      x ∉ (a ++ b ++ c).toList := by
    intro a b c ha hb hc
    simp only [String.toList_append, List.mem_append, not_or]
    exact ⟨⟨ha, hb⟩, hc⟩
  have hcomma : x ∉ [',', ' '] := hx.notMem (by decide) (by decide)
  induction h with
  | string s =>
    exact hparts (hx.notMem (by decide) (by decide)) (hx.notMem_quoted s)
      (hx.notMem (by decide) (by decide))
  | @number n _ => exact n.break_notMem_display hx
  | bool b => cases b <;> exact hx.notMem (by decide) (by decide)
  | null => exact hx.notMem (by decide) (by decide)
  | @tuple items _ _ ih =>
    cases items with
    | nil => exact hx.notMem (by decide) (by decide)
    | cons v items =>
      rw [callChars, display_tuple]
      refine hparts (hx.notMem (by decide) (by decide)) ?_ (hx.notMem (by decide) (by decide))
      rw [← List.append_nil (String.toList _), displayList_append]
      exact Text.notMem_row hcomma List.not_mem_nil ih
  | @list t items _ ht _ ih =>
    cases items with
    | nil =>
      rw [callChars, display_list_nil]
      refine hparts (hx.notMem (by decide) (by decide)) ?_ (hx.notMem (by decide) (by decide))
      match t, ht with
      | .string, _ | .number, _ | .bool, _ => exact hx.notMem (by decide) (by decide)
    | cons v items =>
      rw [callChars, display_list]
      refine hparts (hx.notMem (by decide) (by decide)) ?_ (hx.notMem (by decide) (by decide))
      rw [← List.append_nil (String.toList _), displayList_append]
      exact Text.notMem_row hcomma List.not_mem_nil ih
  | @object entries _ ih =>
    cases entries with
    | nil => exact hx.notMem (by decide) (by decide)
    | cons e entries =>
      rw [callChars, display_object]
      refine hparts (hx.notMem (by decide) (by decide)) ?_ (hx.notMem (by decide) (by decide))
      rw [← List.append_nil (String.toList _), displayEntries_append]
      refine Text.notMem_row hcomma List.not_mem_nil fun d hd => ?_
      have hcolon : x ≠ ':' := by rcases hx with rfl | rfl <;> decide
      simp only [entryChars, List.mem_append, List.mem_cons, not_or]
      exact ⟨hx.notMem_quoted d.1, hcolon, ih d hd⟩

/-! ### Canonical texts -/

/-- The characters of the canonical text. -/
def canonicalChars (v : Value) : List Char := v.canonical.toList

theorem canonicalChars_of_some {j : Json} (h : v.toJson? = some j) :
    v.canonicalChars = j.chars := by
  rw [canonicalChars, canonical, h]
  rfl

theorem canonicalChars_of_none (h : v.toJson? = none) : v.canonicalChars = v.callChars := by
  rw [canonicalChars, canonical, h]
  rfl

/-- A document does not begin like a call. -/
theorem Plain.chars_append_ne (hv : Plain N form v) (hw : Plain N form w) {j : Json}
    (hj : v.toJson? = some j) (s t : List Char) : j.chars ++ s ≠ w.callChars ++ t := by
  obtain ⟨r, hr, _⟩ := hw.callChars_eq
  rw [hr]
  exact (Json.opens_chars (hv.numerals hj) rfl).append_ne s _

/-- **The canonical text of a plain value shows what it is and where it
ends**, if the texts of numbers tell them apart, and calls do where they are
needed. -/
theorem Plain.told_canonicalChars_of (hN : ∀ m ∈ N, ∀ n ∈ N, m.text = n.text → m = n)
    (hcall : v.toJson? = none → w.toJson? = none → Told (fun _ => False) callChars v w)
    (hv : Plain N form v) (hw : Plain N form w) : Told IsNumeral canonicalChars v w := by
  intro s t hs ht h
  -- Values with an infinite number in them are written as calls, all others in JSON.
  cases hj : v.toJson? with
  | none =>
    rw [canonicalChars_of_none hj] at h
    cases hk : w.toJson? with
    | none =>
      rw [canonicalChars_of_none hk] at h
      exact hcall hj hk (fun _ _ => not_false) (fun _ _ => not_false) h
    | some k =>
      rw [canonicalChars_of_some hk] at h
      exact absurd h.symm (hw.chars_append_ne hv hk t s)
  | some j =>
    rw [canonicalChars_of_some hj] at h
    cases hk : w.toJson? with
    | none =>
      rw [canonicalChars_of_none hk] at h
      exact absurd h (hv.chars_append_ne hw hj s t)
    | some k =>
      rw [canonicalChars_of_some hk] at h
      obtain ⟨rfl, hst⟩ := Json.told_chars (hv.numerals hj) (hw.numerals hk) hs ht h
      exact ⟨hv.toJson?_inj hN hw hj hk, hst⟩

theorem Plain.told_canonicalChars (hN : Number.Distinct N) (hv : Plain N form v)
    (hw : Plain N form w) : Told IsNumeral canonicalChars v w :=
  hv.told_canonicalChars_of (fun m hm n hn h => hN m hm n hn (.inl h))
    (fun _ _ => hv.told_callChars hN hw) hw

theorem Plain.break_notMem_canonicalChars (h : Plain N form v) {x : Char}
    (hx : Text.IsBreak x) : x ∉ v.canonicalChars := by
  cases hj : v.toJson? with
  | none =>
    rw [canonicalChars_of_none hj]
    exact h.break_notMem_callChars hx
  | some j =>
    rw [canonicalChars_of_some hj]
    exact Json.break_notMem_chars (h.numerals hj) hx

end Value

/-! ### Named values -/

namespace Bag

open Number (IsNumeral)
open Text (Told)

/-- The line of a named value in the canonical text. -/
def lineChars (e : String × Value) : List Char :=
  (Text.quoted e.1).toList ++ '=' :: (e.2.canonicalChars ++ ['\n'])

theorem toList_canonical (b : Bag) : b.canonical.toList = b.flatMap lineChars := by
  rw [canonical, String.toList_join, List.flatMap_map]
  refine congrArg (fun f => b.flatMap f) (funext fun e => ?_)
  simp [lineChars, Value.canonicalChars]

theorem lineChars_inj {d e : String × Value} (htold : Told IsNumeral Value.canonicalChars d.2 e.2)
    {s t : List Char} (h : lineChars d ++ s = lineChars e ++ t) : d = e ∧ s = t := by
  have hline : ∀ s, Text.Stops IsNumeral ('\n' :: s) := fun s => Text.stops_cons (by decide) s
  simp only [lineChars, List.append_assoc, List.cons_append, List.nil_append] at h
  obtain ⟨hname, hrest⟩ := Text.prefixFree_quoted h
  obtain ⟨hvalue, hst⟩ := htold (hline s) (hline t) (List.cons.inj hrest).2
  exact ⟨Prod.ext hname hvalue, (List.cons.inj hst).2⟩

/-- The lines of two values under one name. -/
theorem lineChars_eq_iff {n : String} {v w : Value} (hv : '\n' ∉ v.canonicalChars)
    (hw : '\n' ∉ w.canonicalChars) {s t : List Char} :
    lineChars (n, v) ++ s = lineChars (n, w) ++ t ↔ v.canonical = w.canonical ∧ s = t := by
  have hline : ∀ {l : List Char}, '\n' ∉ l → ∀ c ∈ l, c ≠ '\n' := by
    rintro l hl c hc rfl
    exact hl hc
  simp only [lineChars, List.append_assoc, List.cons_append, List.nil_append,
    List.append_cancel_left_eq, List.cons.injEq, true_and]
  constructor
  · intro h
    obtain ⟨hvw, hst⟩ := Text.eq_of_append_eq (hline hv) (hline hw)
      (Text.stops_cons (by simp) s) (Text.stops_cons (by simp) t) h
    exact ⟨String.toList_inj.mp hvw, (List.cons.inj hst).2⟩
  · rintro ⟨hvw, rfl⟩
    rw [Value.canonicalChars, Value.canonicalChars, hvw]

theorem lineChars_ne_nil (e : String × Value) (s : List Char) : lineChars e ++ s ≠ [] := by
  simp [lineChars]

/-- **The canonical text determines named values** whose values can be told
apart. -/
theorem canonical_inj : ∀ {b c : Bag},
    (∀ d ∈ b, ∀ e ∈ c, Told IsNumeral Value.canonicalChars d.2 e.2) →
      b.canonical = c.canonical → b = c := by
  simp only [← String.toList_inj, toList_canonical]
  intro b
  induction b with
  | nil =>
    intro c _ h
    cases c with
    | nil => rfl
    | cons e c => exact absurd h.symm (lineChars_ne_nil e _)
  | cons d b ih =>
    intro c htold h
    cases c with
    | nil => exact absurd h (lineChars_ne_nil d _)
    | cons e c =>
      obtain ⟨rfl, hrest⟩ := lineChars_inj (htold d List.mem_cons_self e List.mem_cons_self) h
      rw [ih (fun x hx y hy => htold x (List.mem_cons_of_mem _ hx) y (List.mem_cons_of_mem _ hy))
        hrest]

/-- The same, where values in the same place can be told apart. -/
theorem canonical_inj_of_forall₂ {b c : Bag}
    (htold : List.Forall₂ (fun d e => Told IsNumeral Value.canonicalChars d.2 e.2) b c)
    (h : b.canonical = c.canonical) : b = c := by
  simp only [← String.toList_inj, toList_canonical] at h
  induction htold with
  | nil => rfl
  | cons hde _ ih =>
    obtain ⟨rfl, hrest⟩ := lineChars_inj hde h
    rw [ih hrest]

theorem nul_notMem_canonical {b : Bag} (h : ∀ e ∈ b, '\x00' ∉ e.2.canonicalChars) :
    '\x00' ∉ b.canonical.toList := by
  rw [toList_canonical, List.mem_flatMap]
  rintro ⟨e, he, hmem⟩
  simp only [lineChars, List.mem_append, List.mem_cons, List.not_mem_nil, or_false] at hmem
  rcases hmem with hmem | hmem | hmem | hmem
  · exact Text.IsBreak.notMem_quoted (.inl rfl) e.1 hmem
  · exact absurd hmem (by decide)
  · exact h e he hmem
  · exact absurd hmem (by decide)

end Bag

end SolidityCanvas
