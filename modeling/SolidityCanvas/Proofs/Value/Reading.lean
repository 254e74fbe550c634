/-
Values that are written and read back.

What becomes of a value on its way through a document is a function of its own
(`reread?`): sequences become tuples, maps become objects, `null` loses its
type, and numbers are what their texts are read as.

* `ofJson?_carried`: that is what is read from the written form of a value, if
  its texts and names are as values have them (`Normal`);
* `normal_of_ofJson?`, `isRead_of_ofJson?`: so are those of values that are
  read, and their numbers are numbers that are read;
* `reread?_eq_self_iff`: a value that was read comes back as it is exactly if
  each of its numbers does;
* `depth_toJson?_le`: what is written is not nested deeper than what was read.

`ClosedUnderWriting` and `ClosedUnderReading` are the inductions over a value
and its written form, and over a document and the value it describes.
-/
import SolidityCanvas.Proofs.Canvas.Content
import SolidityCanvas.Proofs.Json.Carried
import SolidityCanvas.Proofs.Number.ReadBack
import SolidityCanvas.Proofs.Text.Normal
import SolidityCanvas.Proofs.Value.Named

namespace SolidityCanvas.Value

open Json (Carries CarriesItems CarriesMembers)

/-! ### Induction over what is written -/

/-- The value is a list, a set or a tuple of some values. -/
inductive IsSequence : Value → List Value → Prop
  | list (t : ValueType) (items : List Value) : IsSequence (list t items) items
  | set (t : ValueType) (items : List Value) : IsSequence (set t items) items
  | tuple (items : List Value) : IsSequence (tuple items) items

/-- The value is a map or an object of some named values. -/
inductive IsRecord : Value → List (String × Value) → Prop
  | map (t : ValueType) (entries : List (String × Value)) : IsRecord (map t entries) entries
  | object (entries : List (String × Value)) : IsRecord (object entries) entries

/-- What holds of a value and its written form if it does of their parts. -/
structure ClosedUnderWriting (P : Value → Json → Prop) : Prop where
  string : ∀ s, P (string s) (.string s)
  number : ∀ b : Binary, P (number (.finite b)) (.number b.text)
  bool : ∀ b, P (bool b) (.bool b)
  null : ∀ t, P (null t) .null
  array : ∀ {v items js}, IsSequence v items → List.Forall₂ P items js → P v (.array js)
  object : ∀ {v entries members}, IsRecord v entries →
    List.Forall₂ (fun e m => e.1 = m.1 ∧ P e.2 m.2) entries members → P v (.object members)

variable {P : Value → Json → Prop}

mutual

theorem ClosedUnderWriting.of_toJson? (hP : ClosedUnderWriting P) : ∀ (v : Value) {j : Json},
    v.toJson? = some j → P v j
  | .string s, j, h => Option.some_inj.mp h ▸ hP.string s
  | .number (.finite b), j, h => Option.some_inj.mp h ▸ hP.number b
  | .number (.infinite _), j, h => by simp [toJson?] at h
  | .bool b, j, h => Option.some_inj.mp h ▸ hP.bool b
  | .list t items, j, h => by
    obtain ⟨js, hjs, rfl⟩ := Option.map_eq_some_iff.mp h
    exact hP.array (.list t items) (hP.of_items items hjs)
  | .set t items, j, h => by
    obtain ⟨js, hjs, rfl⟩ := Option.map_eq_some_iff.mp h
    exact hP.array (.set t items) (hP.of_items items hjs)
  | .tuple items, j, h => by
    obtain ⟨js, hjs, rfl⟩ := Option.map_eq_some_iff.mp h
    exact hP.array (.tuple items) (hP.of_items items hjs)
  | .map t entries, j, h => by
    obtain ⟨members, hmembers, rfl⟩ := Option.map_eq_some_iff.mp h
    exact hP.object (.map t entries) (hP.of_entries entries hmembers)
  | .object entries, j, h => by
    obtain ⟨members, hmembers, rfl⟩ := Option.map_eq_some_iff.mp h
    exact hP.object (.object entries) (hP.of_entries entries hmembers)
  | .null t, j, h => Option.some_inj.mp h ▸ hP.null t
  | .unknown t, j, h => by simp [toJson?] at h

theorem ClosedUnderWriting.of_items (hP : ClosedUnderWriting P) : ∀ (items : List Value) {js : List Json},
    itemsToJson? items = some js → List.Forall₂ P items js
  | [], js, h => Option.some_inj.mp h ▸ .nil
  | v :: vs, js, h => by
    simp only [itemsToJson?, Option.bind_eq_bind, Option.bind_eq_some_iff, Option.pure_def,
      Option.some_inj] at h
    obtain ⟨j, hj, rest, hrest, rfl⟩ := h
    exact .cons (hP.of_toJson? v hj) (hP.of_items vs hrest)

theorem ClosedUnderWriting.of_entries (hP : ClosedUnderWriting P) : ∀ (entries : List (String × Value))
    {members : List (String × Json)}, entriesToJson? entries = some members →
    List.Forall₂ (fun e m => e.1 = m.1 ∧ P e.2 m.2) entries members
  | [], members, h => Option.some_inj.mp h ▸ .nil
  | (n, v) :: vs, members, h => by
    simp only [entriesToJson?, Option.bind_eq_bind, Option.bind_eq_some_iff, Option.pure_def,
      Option.some_inj] at h
    obtain ⟨j, hj, rest, hrest, rfl⟩ := h
    exact .cons ⟨rfl, hP.of_toJson? v hj⟩ (hP.of_entries vs hrest)

end

/-! ### Induction over what is read -/

/-- What holds of a document and the value it describes if it does of their
parts. -/
structure ClosedUnderReading (P : Json → Value → Prop) : Prop where
  null : P .null (null .dynamic)
  bool : ∀ b, P (.bool b) (bool b)
  number : ∀ {t n}, Number.parse? t = some n → P (.number t) (number n)
  string : ∀ s, P (.string s) (text s)
  array : ∀ {js vs}, List.Forall₂ P js vs → P (.array js) (tuple vs)
  object : ∀ {members named}, List.Forall₂ (fun m e => P m.2 e.2) members named →
    (∀ e ∈ named, Text.normalize e.1 = e.1) → P (.object members) (object (sortNamed named))

variable {Q : Json → Value → Prop}

mutual

theorem ClosedUnderReading.of_ofJson? (hQ : ClosedUnderReading Q) : ∀ (j : Json) {v : Value},
    ofJson? j = some v → Q j v
  | .null, v, h => Option.some_inj.mp h ▸ hQ.null
  | .bool b, v, h => Option.some_inj.mp h ▸ hQ.bool b
  | .number t, v, h => by
    obtain ⟨n, hn, rfl⟩ := Option.map_eq_some_iff.mp h
    exact hQ.number hn
  | .string s, v, h => Option.some_inj.mp h ▸ hQ.string s
  | .array items, v, h => by
    obtain ⟨vs, hvs, rfl⟩ := Option.map_eq_some_iff.mp h
    exact hQ.array (hQ.of_items items hvs)
  | .object members, v, h => by
    simp only [ofJson?, Option.bind_eq_bind, Option.bind_eq_some_iff] at h
    obtain ⟨named, hnamed, h⟩ := h
    split at h
    · cases h
    rename_i hnames
    split at h
    · cases h
    obtain rfl := Option.some_inj.mp h
    refine hQ.object (hQ.of_members members hnamed) fun e he => ?_
    by_contra hne
    exact hnames (List.any_eq_true.mpr ⟨e, he, by simpa using hne⟩)

theorem ClosedUnderReading.of_items (hQ : ClosedUnderReading Q) : ∀ (js : List Json)
    {vs : List Value}, ofItems? js = some vs → List.Forall₂ Q js vs
  | [], vs, h => Option.some_inj.mp h ▸ .nil
  | j :: js, vs, h => by
    simp only [ofItems?, Option.bind_eq_bind, Option.bind_eq_some_iff, Option.pure_def,
      Option.some_inj] at h
    obtain ⟨v, hv, rest, hrest, rfl⟩ := h
    exact .cons (hQ.of_ofJson? j hv) (hQ.of_items js hrest)

theorem ClosedUnderReading.of_members (hQ : ClosedUnderReading Q) :
    ∀ (members : List (String × Json)) {named : List (String × Value)},
    ofMembers? members = some named → List.Forall₂ (fun m e => Q m.2 e.2) members named
  | [], named, h => Option.some_inj.mp h ▸ .nil
  | (n, j) :: members, named, h => by
    simp only [ofMembers?, Option.bind_eq_bind, Option.bind_eq_some_iff, Option.pure_def,
      Option.some_inj] at h
    obtain ⟨v, hv, rest, hrest, rfl⟩ := h
    exact .cons (hQ.of_ofJson? j hv) (hQ.of_members members hrest)

end

/-! ### Normal values -/

mutual

/-- Texts and names are in normal form, and names ascend. -/
def Normal : Value → Prop
  | string s => Text.normalize s = s
  | list _ items | set _ items | tuple items => NormalItems items
  | map _ entries | object entries => Ascending entries ∧ NormalEntries entries
  | number _ | bool _ | null _ | unknown _ => True

/-- All values are normal. -/
def NormalItems : List Value → Prop
  | [] => True
  | v :: vs => Normal v ∧ NormalItems vs

/-- All names and values are normal. -/
def NormalEntries : List (String × Value) → Prop
  | [] => True
  | (n, v) :: vs => Text.normalize n = n ∧ Normal v ∧ NormalEntries vs

end

theorem normalItems_iff {items : List Value} : NormalItems items ↔ ∀ v ∈ items, Normal v := by
  induction items with
  | nil => simp [NormalItems]
  | cons v items ih => simp [NormalItems, ih]

theorem normalEntries_iff {entries : List (String × Value)} :
    NormalEntries entries ↔ ∀ e ∈ entries, Text.normalize e.1 = e.1 ∧ Normal e.2 := by
  induction entries with
  | nil => simp [NormalEntries]
  | cons e entries ih =>
    obtain ⟨n, v⟩ := e
    simp [NormalEntries, ih, and_assoc]

section parts

variable {v : Value} {items : List Value} {entries : List (String × Value)} {j : Json} {n : Number}

theorem IsSequence.normal (h : IsSequence v items) (hv : v.Normal) : ∀ w ∈ items, w.Normal := by
  rw [← normalItems_iff]
  cases h <;> simpa only [Normal] using hv

theorem IsRecord.normal (h : IsRecord v entries) (hv : v.Normal) :
    Ascending entries ∧ ∀ e ∈ entries, Text.normalize e.1 = e.1 ∧ e.2.Normal := by
  rw [← normalEntries_iff]
  cases h <;> simpa only [Normal] using hv

/-- Values that are read are normal. -/
theorem normal_of_ofJson? (h : ofJson? j = some v) : v.Normal := by
  have hnormal : ClosedUnderReading fun _ v => v.Normal :=
    { null := by simp only [Normal]
      bool := fun _ => by simp only [Normal]
      number := fun _ => by simp only [Normal]
      string := fun s => by
        simp only [text, Normal]
        exact Text.normalize_normalize s
      array := fun hitems => by
        simp only [Normal, normalItems_iff]
        intro w hw
        obtain ⟨_, -, hj⟩ := exists_mem_of_forall₂ hitems w hw
        exact hj
      object := fun hmembers hnames => by
        simp only [Normal, normalEntries_iff]
        refine ⟨ascending_sortNamed _, fun e he => ?_⟩
        have hmem := mem_of_mem_sortNamed he
        obtain ⟨_, -, hm⟩ := exists_mem_of_forall₂ hmembers e hmem
        exact ⟨hnames e hmem, hm⟩ }
  exact hnormal.of_ofJson? j h

theorem IsSequence.mem_numbers (h : IsSequence v items) :
    n ∈ v.numbers ↔ ∃ w ∈ items, n ∈ w.numbers := by
  cases h <;> rw [numbers, mem_itemsNumbers]

theorem IsRecord.mem_numbers (h : IsRecord v entries) :
    n ∈ v.numbers ↔ ∃ e ∈ entries, n ∈ e.2.numbers := by
  cases h <;> rw [numbers, mem_entriesNumbers]

/-- The numbers of values that are read are read. -/
theorem isRead_of_ofJson? (h : ofJson? j = some v) : ∀ n ∈ v.numbers, n.IsRead := by
  have hread : ClosedUnderReading fun _ v => ∀ n ∈ v.numbers, n.IsRead :=
    { null := by simp [numbers]
      bool := fun _ => by simp [numbers]
      number := fun hn m hm => by
        rw [numbers, List.mem_singleton] at hm
        exact hm ▸ Number.isRead_of_parse? hn
      string := fun s => by simp [text, numbers]
      array := fun hitems n hn => by
        obtain ⟨w, hw, hn⟩ := (IsSequence.tuple _).mem_numbers.mp hn
        obtain ⟨_, -, hj⟩ := exists_mem_of_forall₂ hitems w hw
        exact hj n hn
      object := fun hmembers _ n hn => by
        obtain ⟨e, he, hn⟩ := (IsRecord.object _).mem_numbers.mp hn
        obtain ⟨_, -, hm⟩ := exists_mem_of_forall₂ hmembers e (mem_of_mem_sortNamed he)
        exact hm n hn }
  exact hread.of_ofJson? j h

/-! ### Written forms -/

theorem isSome_both {α β γ : Type} (a? : Option α) (b? : Option β) (f : α → β → γ) :
    (do
      let a ← a?
      let b ← b?
      return f a b : Option γ).isSome = (a?.isSome && b?.isSome) := by
  cases a? <;> cases b? <;> rfl

mutual

/-- A value has a written form if it is known and its numbers are finite. -/
theorem isSome_toJson? : ∀ v : Value,
    v.toJson?.isSome = (v.isWhollyKnown && v.numbers.all (!·.isInfinite))
  | .string _ | .bool _ | .null _ | .unknown _ => rfl
  | .number n => by cases n <;> rfl
  | .list _ items | .set _ items | .tuple items => by
    rw [toJson?, Option.isSome_map, isWhollyKnown, numbers, isSome_itemsToJson? items]
  | .map _ entries | .object entries => by
    rw [toJson?, Option.isSome_map, isWhollyKnown, numbers, isSome_entriesToJson? entries]

theorem isSome_itemsToJson? : ∀ items : List Value,
    (itemsToJson? items).isSome = (allKnown items && (itemsNumbers items).all (!·.isInfinite))
  | [] => rfl
  | v :: items => by
    rw [itemsToJson?, isSome_both, isSome_toJson? v, isSome_itemsToJson? items, allKnown,
      itemsNumbers, List.all_append]
    ac_rfl

theorem isSome_entriesToJson? : ∀ entries : List (String × Value), (entriesToJson? entries).isSome =
    (allEntriesKnown entries && (entriesNumbers entries).all (!·.isInfinite))
  | [] => rfl
  | (_, v) :: entries => by
    rw [entriesToJson?, isSome_both, isSome_toJson? v, isSome_entriesToJson? entries,
      allEntriesKnown, entriesNumbers, List.all_append]
    ac_rfl

end

theorem allKnown_iff {items : List Value} : allKnown items ↔ ∀ v ∈ items, v.isWhollyKnown := by
  induction items with
  | nil => simp [allKnown]
  | cons v items ih => simp [allKnown, ih]

theorem allEntriesKnown_iff {entries : List (String × Value)} :
    allEntriesKnown entries ↔ ∀ e ∈ entries, e.2.isWhollyKnown := by
  induction entries with
  | nil => simp [allEntriesKnown]
  | cons e entries ih =>
    obtain ⟨n, v⟩ := e
    simp [allEntriesKnown, ih]

theorem Plain.isWhollyKnown {N : Set Number} {form : Option ValueType}
    (h : Plain N form v) : v.isWhollyKnown := by
  induction h with
  | string | number | bool | null => rfl
  | tuple _ _ ih | list _ _ _ ih => exact allKnown_iff.mpr ih
  | object _ ih => exact allEntriesKnown_iff.mpr ih

theorem names_of_forall₂ {members : List (String × Json)}
    {r : String × Value → String × Json → Prop} (hr : ∀ e m, r e m → e.1 = m.1)
    (h : List.Forall₂ r entries members) : members.map (·.1) = entries.map (·.1) := by
  induction h with
  | nil => rfl
  | cons he _ ih => simp [hr _ _ he, ih]

/-- A written form names no member twice, and its numbers are those of the
value. -/
theorem regular_toJson? {P : String → Prop} (hv : v.Normal) (h : v.toJson? = some j)
    (hP : ∀ b : Binary, .finite b ∈ v.numbers → P b.text) : j.Regular P := by
  have hregular : ClosedUnderWriting fun v j => v.Normal →
      (∀ b : Binary, .finite b ∈ v.numbers → P b.text) → j.Regular P :=
    { string := fun s _ _ => .string s
      number := fun b _ hP => .number (hP b (by simp [numbers]))
      bool := fun b _ _ => .bool b
      null := fun _ _ _ => .null
      array := fun hseq hitems hv hP => .array fun j hj => by
        obtain ⟨w, hw, hwj⟩ := exists_mem_of_forall₂ hitems j hj
        exact hwj (hseq.normal hv w hw) fun b hb => hP b (hseq.mem_numbers.mpr ⟨w, hw, hb⟩)
      object := fun hrec hentries hv hP => by
        refine .object ?_ fun m hm => ?_
        · rw [names_of_forall₂ (fun _ _ h => h.1) hentries]
          exact (hrec.normal hv).1.nodup
        · obtain ⟨e, he, hem⟩ := exists_mem_of_forall₂ hentries m hm
          exact hem.2 ((hrec.normal hv).2 e he).2 fun b hb =>
            hP b (hrec.mem_numbers.mpr ⟨e, he, hb⟩) }
  exact hregular.of_toJson? v h hv hP

/-- What is written is not nested deeper than what was read. -/
theorem depth_toJson?_le (h : ofJson? j = some v) {j' : Json} (hj' : v.toJson? = some j') :
    j'.depth ≤ j.depth := by
  have hdepth : ClosedUnderReading fun j v => ∀ j', v.toJson? = some j' → j'.depth ≤ j.depth :=
    { null := fun j' h => by
        obtain rfl := Option.some_inj.mp h
        rfl
      bool := fun b j' h => by
        obtain rfl := Option.some_inj.mp h
        rfl
      number := fun {t n} _ j' h => by
        cases n with
        | finite b =>
          obtain rfl := Option.some_inj.mp h
          rfl
        | infinite _ => simp [toJson?] at h
      string := fun s j' h => by
        obtain rfl := Option.some_inj.mp h
        rfl
      array := fun {js vs} hitems j' h => by
        obtain ⟨js', hjs', rfl⟩ := Option.map_eq_some_iff.mp h
        simp only [Json.depth, Nat.add_le_add_iff_right, Json.itemsDepth_le]
        intro k hk
        obtain ⟨w, hw, hwk⟩ := exists_mem_of_forall₂ (itemsToJson?_eq_some.mp hjs') k hk
        obtain ⟨j, hj, hjw⟩ := exists_mem_of_forall₂ hitems w hw
        exact (hjw k hwk).trans (Json.itemsDepth_le.mp le_rfl j hj)
      object := fun {members named} hmembers _ j' h => by
        obtain ⟨members', hmembers', rfl⟩ := Option.map_eq_some_iff.mp h
        simp only [Json.depth, Nat.add_le_add_iff_right, Json.membersDepth_le]
        intro k hk
        obtain ⟨e, he, hek⟩ := exists_mem_of_forall₂ (entriesToJson?_eq_some.mp hmembers') k hk
        obtain ⟨m, hm, hme⟩ := exists_mem_of_forall₂ hmembers e (mem_of_mem_sortNamed he)
        exact (hme k.2 hek.2).trans (Json.membersDepth_le.mp le_rfl m hm) }
  exact hdepth.of_ofJson? j h j' hj'

end parts

/-! ### What comes back -/

section reread

variable (f : String → Option String)

/-- The number that the text of a number, written anew by `f`, is read as. -/
def rereadNumber? : Number → Option Number
  | .finite b => (f b.text).bind Number.parse?
  | .infinite _ => none

mutual

/-- What a value is read as, after its numbers were written anew by `f`. -/
def reread? : Value → Option Value
  | string s => some (string s)
  | number n => (rereadNumber? f n).map number
  | bool b => some (bool b)
  | list _ items | set _ items | tuple items => (rereadItems? items).map tuple
  | map _ entries | object entries => (rereadEntries? entries).map object
  | null _ => some (null .dynamic)
  | unknown _ => none

/-- What values are read as. -/
def rereadItems? : List Value → Option (List Value)
  | [] => some []
  | v :: vs => do
    let w ← reread? v
    let ws ← rereadItems? vs
    return w :: ws

/-- What named values are read as. -/
def rereadEntries? : List (String × Value) → Option (List (String × Value))
  | [] => some []
  | (n, v) :: vs => do
    let w ← reread? v
    let ws ← rereadEntries? vs
    return (n, w) :: ws

end

end reread

variable {f : String → Option String}

theorem names_rereadEntries? {entries named : List (String × Value)}
    (h : rereadEntries? f entries = some named) : named.map (·.1) = entries.map (·.1) := by
  induction entries generalizing named with
  | nil =>
    obtain rfl := Option.some_inj.mp h
    rfl
  | cons e entries ih =>
    obtain ⟨n, v⟩ := e
    simp only [rereadEntries?, Option.bind_eq_bind, Option.bind_eq_some_iff, Option.pure_def,
      Option.some_inj] at h
    obtain ⟨w, -, ws, hws, rfl⟩ := h
    simp [ih hws]

/-- The members of an object may be read in any order. -/
theorem perm_ofMembers? {members out : List (String × Json)} (h : out.Perm members) :
    ∀ {named : List (String × Value)}, ofMembers? members = some named →
      ∃ named', ofMembers? out = some named' ∧ named'.Perm named := by
  induction h with
  | nil =>
    intro named h
    exact ⟨named, h, List.Perm.refl _⟩
  | cons m _ ih =>
    intro named h
    obtain ⟨n, j⟩ := m
    simp only [ofMembers?, Option.bind_eq_bind, Option.bind_eq_some_iff, Option.pure_def,
      Option.some_inj] at h
    obtain ⟨v, hv, rest, hrest, rfl⟩ := h
    obtain ⟨rest', hrest', hperm⟩ := ih hrest
    exact ⟨(n, v) :: rest', by simp [ofMembers?, hv, hrest'], hperm.cons _⟩
  | swap m m' l =>
    intro named h
    obtain ⟨n, j⟩ := m
    obtain ⟨n', j'⟩ := m'
    simp only [ofMembers?, Option.bind_eq_bind, Option.bind_eq_some_iff, Option.pure_def,
      Option.some_inj] at h
    obtain ⟨v, hv, rest, ⟨v', hv', rest', hrest, rfl⟩, rfl⟩ := h
    exact ⟨(n', v') :: (n, v) :: rest', by simp [ofMembers?, hv, hv', hrest],
      List.Perm.swap _ _ _⟩
  | trans _ _ ih ih' =>
    intro named h
    obtain ⟨named', h', hperm⟩ := ih' h
    obtain ⟨named'', h'', hperm'⟩ := ih h'
    exact ⟨named'', h'', hperm'.trans hperm⟩

theorem consistent_of_nodup {named : List (String × Value)} (h : (named.map (·.1)).Nodup) :
    consistent named = true := by
  simp only [consistent, List.all_eq_true, Bool.or_eq_true, bne_iff_ne, ne_eq, beq_iff_eq]
  intro e he e' he'
  by_cases hname : e.1 = e'.1
  · exact Or.inr (by rw [List.inj_on_of_nodup_map h he he' hname])
  · exact Or.inl hname

/-- Members whose names ascend and are normal make an object, in whatever
order they come. -/
theorem ofJson?_object {members out : List (String × Json)} (hperm : out.Perm members)
    {named : List (String × Value)} (hnamed : ofMembers? members = some named)
    (hascending : Ascending named) (hnames : ∀ e ∈ named, Text.normalize e.1 = e.1) :
    ofJson? (.object out) = some (object named) := by
  obtain ⟨named', hout, hperm'⟩ := perm_ofMembers? hperm hnamed
  have hnormal : named'.any (fun e => Text.normalize e.1 != e.1) = false := by
    rw [List.any_eq_false]
    intro e he
    simpa using hnames e (hperm'.mem_iff.mp he)
  have hconsistent : consistent named' = true :=
    consistent_of_nodup ((hperm'.map _).nodup_iff.mpr hascending.nodup)
  simp [ofJson?, hout, hnormal, hconsistent, sortNamed_eq_of_perm hascending hperm']

theorem ofMembers?_eq_none {members out : List (String × Json)} (hperm : out.Perm members)
    (h : ofMembers? members = none) : ofMembers? out = none := by
  rw [Option.eq_none_iff_forall_ne_some]
  intro named hnamed
  obtain ⟨named', hnamed', -⟩ := perm_ofMembers? hperm.symm hnamed
  rw [h] at hnamed'
  cases hnamed'

section carried

variable {v : Value} {items : List Value} {entries : List (String × Value)} {j j' : Json}

theorem IsSequence.reread? (h : IsSequence v items) :
    v.reread? f = (rereadItems? f items).map Value.tuple := by
  cases h <;> rw [Value.reread?]

theorem IsRecord.reread? (h : IsRecord v entries) :
    v.reread? f = (rereadEntries? f entries).map Value.object := by
  cases h <;> rw [Value.reread?]

/-- What holds of a value that is normal, its written form, and all documents
that carry it. -/
def ReadCarried (f : String → Option String) (v : Value) (j : Json) : Prop :=
  v.Normal → ∀ j', Carries f j j' → ofJson? j' = v.reread? f

theorem ofItems?_carried {js js' : List Json} (hitems : ∀ v ∈ items, v.Normal)
    (h : List.Forall₂ (ReadCarried f) items js) (hc : CarriesItems f js js') :
    ofItems? js' = rereadItems? f items := by
  induction h generalizing js' with
  | nil =>
    simp only [CarriesItems] at hc
    simp [hc, ofItems?, rereadItems?]
  | cons hv _ ih =>
    simp only [CarriesItems] at hc
    obtain ⟨j', rest', hj', hrest', rfl⟩ := hc
    rw [List.forall_mem_cons] at hitems
    rw [ofItems?, rereadItems?, hv hitems.1 j' hj', ih hitems.2 hrest']

theorem ofMembers?_carried {members members' : List (String × Json)}
    (hentries : ∀ e ∈ entries, e.2.Normal)
    (h : List.Forall₂ (fun e m => e.1 = m.1 ∧ ReadCarried f e.2 m.2) entries members)
    (hc : CarriesMembers f members members') :
    ofMembers? members' = rereadEntries? f entries := by
  induction h generalizing members' with
  | nil =>
    simp only [CarriesMembers] at hc
    simp [hc, ofMembers?, rereadEntries?]
  | @cons e m entries members he _ ih =>
    obtain ⟨n, v⟩ := e
    obtain ⟨n', j⟩ := m
    obtain ⟨rfl, hv⟩ := he
    simp only [CarriesMembers] at hc
    obtain ⟨j', rest', hj', hrest', rfl⟩ := hc
    rw [List.forall_mem_cons] at hentries
    rw [ofMembers?, rereadEntries?, hv hentries.1 j' hj', ih hentries.2 hrest']

/-- Named values that ascend are read back in whatever order their members
come. -/
theorem ofObject?_carried {members out : List (String × Json)} (hascending : Ascending entries)
    (hentries : ∀ e ∈ entries, Text.normalize e.1 = e.1 ∧ e.2.Normal)
    (h : List.Forall₂ (fun e m => e.1 = m.1 ∧ ReadCarried f e.2 m.2) entries members)
    (hout : Json.Shows f members out) :
    ofJson? (.object out) = (rereadEntries? f entries).map object := by
  obtain ⟨members', hmembers', hperm⟩ := hout
  have hnamed := ofMembers?_carried (fun e he => (hentries e he).2) h hmembers'
  cases hreread : rereadEntries? f entries with
  | none =>
    rw [hreread] at hnamed
    simp [ofJson?, ofMembers?_eq_none hperm hnamed]
  | some named =>
    rw [hreread] at hnamed
    have hnames := names_rereadEntries? hreread
    refine ofJson?_object hperm hnamed (by rwa [Ascending, hnames]) fun e he => ?_
    have hmem : e.1 ∈ entries.map (·.1) := hnames ▸ List.mem_map_of_mem he
    obtain ⟨e', he', heq⟩ := List.mem_map.mp hmem
    rw [← heq]
    exact (hentries e' he').1

theorem closedUnderWriting_readCarried : ClosedUnderWriting (ReadCarried f) where
  string s hv j' hc := by
    obtain rfl := Json.carries_string.mp hc
    simp only [Normal] at hv
    simp [ofJson?, Value.reread?, text, hv]
  number b _ j' hc := by
    obtain ⟨t, ht, rfl⟩ := Json.carries_number.mp hc
    simp [ofJson?, Value.reread?, rereadNumber?, ht]
  bool b _ j' hc := by
    obtain rfl := Json.carries_bool.mp hc
    rfl
  null t _ j' hc := by
    obtain rfl := Json.carries_null.mp hc
    rfl
  array hseq hitems hv j' hc := by
    obtain ⟨js', hjs', rfl⟩ := Json.carries_array.mp hc
    rw [ofJson?, hseq.reread?, ofItems?_carried (hseq.normal hv) hitems hjs']
  object hrec hentries hv j' hc := by
    obtain ⟨out, hout, rfl⟩ := Json.carries_object.mp hc
    rw [hrec.reread?, ofObject?_carried (hrec.normal hv).1 (hrec.normal hv).2 hentries hout]

/-- **The written form of a normal value, carried over, is read as
`reread?` says.** -/
theorem ofJson?_carried (hv : v.Normal) (hj : v.toJson? = some j) (hc : Carries f j j') :
    ofJson? j' = v.reread? f :=
  closedUnderWriting_readCarried.of_toJson? v hj hv j' hc

/-! ### What comes back as it is -/

theorem rereadItems?_eq_self_iff :
    rereadItems? f items = some items ↔ ∀ v ∈ items, v.reread? f = some v := by
  induction items with
  | nil => simp [rereadItems?]
  | cons v items ih => simp [rereadItems?, Option.bind_eq_some_iff, ih]

theorem rereadEntries?_eq_self_iff :
    rereadEntries? f entries = some entries ↔ ∀ e ∈ entries, e.2.reread? f = some e.2 := by
  induction entries with
  | nil => simp [rereadEntries?]
  | cons e entries ih =>
    obtain ⟨n, v⟩ := e
    simp [rereadEntries?, Option.bind_eq_some_iff, ih]

/-- **A value that a document describes comes back as it is exactly if its
numbers do.** -/
theorem Described.reread?_eq_self_iff (h : Described v) :
    v.reread? f = some v ↔ ∀ n ∈ v.numbers, rereadNumber? f n = some n := by
  have hplain : ∀ {N : Set Number} {v : Value}, Plain N none v →
      (v.reread? f = some v ↔ ∀ n ∈ v.numbers, rereadNumber? f n = some n) := by
    intro N v hv
    induction hv with
    | string s => simp [Value.reread?, numbers]
    | number hn => simp [Value.reread?, numbers]
    | bool b => simp [Value.reread?, numbers]
    | null => simp [Value.reread?, numbers]
    | @tuple items _ _ ih =>
      have hmem (n : Number) := (IsSequence.tuple items).mem_numbers (n := n)
      rw [(IsSequence.tuple items).reread?]
      simp only [Option.map_eq_some_iff, tuple.injEq, exists_eq_right, rereadItems?_eq_self_iff, hmem]
      exact ⟨fun h n ⟨w, hw, hn⟩ => (ih w hw).mp (h w hw) n hn,
        fun h w hw => (ih w hw).mpr fun n hn => h n ⟨w, hw, hn⟩⟩
    | list hform => cases hform
    | @object entries _ ih =>
      have hmem (n : Number) := (IsRecord.object entries).mem_numbers (n := n)
      rw [(IsRecord.object entries).reread?]
      simp only [Option.map_eq_some_iff, object.injEq, exists_eq_right, rereadEntries?_eq_self_iff,
        hmem]
      exact ⟨fun h n ⟨e, he, hn⟩ => (ih e he).mp (h e he) n hn,
        fun h e he => (ih e he).mpr fun n hn => h n ⟨e, he, hn⟩⟩
  exact hplain h

theorem rereadNumber?_some_iff {n : Number} : rereadNumber? some n = some n ↔ n.ReadsBack := by
  cases n with
  | finite b => simp [rereadNumber?, Number.ReadsBack]
  | infinite negative => simp [rereadNumber?, Number.ReadsBack]

end carried

end SolidityCanvas.Value
