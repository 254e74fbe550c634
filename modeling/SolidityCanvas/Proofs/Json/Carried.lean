/-
Documents that show the same.

A document is carried over to another one if numbers are written anew in some
way and the members of objects come in any order.

* `carries_of_plain?`: plain data carry the document they are made from;
* `carries_refl`: a document carries itself, with its numbers as they are;
* `readField_of_one`, `readField_of_none`: what a field of a record is read as
  depends on the carried document alone.
-/
import SolidityCanvas.Proofs.Json.Reading
import SolidityCanvas.Proofs.Number.Expansion
import SolidityCanvas.Proofs.Value.Named
import SolidityCanvas.Server.Message

namespace SolidityCanvas.Json

/-! ### Carried documents -/

section carries

variable (f : String → Option String)

mutual

/-- The second document is the first one with its numbers written by `f` and
the members of objects in any order. -/
def Carries : Json → Json → Prop
  | null, j => j = null
  | bool b, j => j = bool b
  | number t, j => ∃ t', f t = some t' ∧ j = number t'
  | string s, j => j = string s
  | array items, j => ∃ items', CarriesItems items items' ∧ j = array items'
  | object members, j =>
    ∃ members' out, CarriesMembers members members' ∧ out.Perm members' ∧ j = object out

/-- The items of the second list carry those of the first. -/
def CarriesItems : List Json → List Json → Prop
  | [], js => js = []
  | i :: is, js => ∃ j js', Carries i j ∧ CarriesItems is js' ∧ js = j :: js'

/-- The members of the second list have the names of those of the first, and
carry them. -/
def CarriesMembers : List (String × Json) → List (String × Json) → Prop
  | [], ms => ms = []
  | (n, i) :: is, ms => ∃ j ms', Carries i j ∧ CarriesMembers is ms' ∧ ms = (n, j) :: ms'

end

end carries

variable {f : String → Option String}

mutual

/-- With all numbers as they are, a document carries itself. -/
theorem carries_refl : ∀ j : Json, Carries some j j
  | null => by simp [Carries]
  | bool b => by simp [Carries]
  | number t => by simp [Carries]
  | string s => by simp [Carries]
  | array items => by
    simp only [Carries, array.injEq]
    exact ⟨items, carriesItems_refl items, rfl⟩
  | object members => by
    simp only [Carries, object.injEq]
    exact ⟨members, members, carriesMembers_refl members, List.Perm.refl _, rfl⟩

theorem carriesItems_refl : ∀ items : List Json, CarriesItems some items items
  | [] => by simp [CarriesItems]
  | j :: js => by
    simp only [CarriesItems]
    exact ⟨j, js, carries_refl j, carriesItems_refl js, rfl⟩

theorem carriesMembers_refl : ∀ members : List (String × Json),
    CarriesMembers some members members
  | [] => by simp [CarriesMembers]
  | (n, j) :: rest => by
    simp only [CarriesMembers]
    exact ⟨j, rest, carries_refl j, carriesMembers_refl rest, rfl⟩

end

/-! ### Plain data -/

/-- A number as plain data write it. -/
def plainNumber? (t : String) : Option String := (Double.parse? t).map Double.text

/-- No object names a member twice, and the numbers are as `P` says. -/
inductive Regular (P : String → Prop) : Json → Prop
  | null : Regular P null
  | bool (b : Bool) : Regular P (bool b)
  | number {t : String} (h : P t) : Regular P (number t)
  | string (s : String) : Regular P (string s)
  | array {items : List Json} (h : ∀ j ∈ items, Regular P j) : Regular P (array items)
  | object {members : List (String × Json)} (hnames : (members.map (·.1)).Nodup)
      (h : ∀ m ∈ members, Regular P m.2) : Regular P (object members)

variable {P : String → Prop} {j : Json}

@[simp] theorem regular_string (s : String) : (string s).Regular P := .string s

@[simp] theorem regular_bool (b : Bool) : (bool b).Regular P := .bool b

@[simp] theorem regular_null : null.Regular P := .null

@[simp] theorem regular_number {t : String} : (number t).Regular P ↔ P t :=
  ⟨fun h => by cases h; assumption, .number⟩

@[simp] theorem regular_array {items : List Json} :
    (array items).Regular P ↔ ∀ j ∈ items, j.Regular P :=
  ⟨fun h => by cases h; assumption, .array⟩

theorem Regular.readable (hP : ∀ t, P t → IsNumber t) (h : j.Regular P) : j.Readable := by
  induction h with
  | null => exact .null
  | bool b => exact .bool b
  | number ht => exact .number (hP _ ht)
  | string s => exact .string s
  | array _ ih => exact .array ih
  | object _ _ ih => exact .object ih

theorem carriesMembers_of_plainMembers? : ∀ {members done out : List (String × Json)},
    (∀ m ∈ members, ∀ j', plain? m.2 = some j' → Carries plainNumber? m.2 j') →
    ((members ++ done).map (·.1)).Nodup → plainMembers? done members = some out →
    ∃ members', CarriesMembers plainNumber? members members' ∧ out.Perm (members' ++ done) := by
  intro members
  induction members with
  | nil =>
    intro done out _ _ h
    simp only [plainMembers?, Option.some_inj] at h
    exact ⟨[], by simp [CarriesMembers], by simp [h]⟩
  | cons m rest ih =>
    obtain ⟨n, j⟩ := m
    intro done out hcarries hnd h
    simp only [plainMembers?, Option.bind_eq_bind, Option.bind_eq_some_iff] at h
    obtain ⟨j', hj, h⟩ := h
    rw [List.forall_mem_cons] at hcarries
    have hperm : (Value.insertNamed n j' done).Perm ((n, j') :: done) := by
      refine Value.perm_insertNamed fun hmem => ?_
      rw [List.cons_append, List.map_cons, List.nodup_cons, List.map_append] at hnd
      exact hnd.1 (List.mem_append_right _ hmem)
    have hnd' : ((rest ++ Value.insertNamed n j' done).map (·.1)).Nodup := by
      have hmove : ((rest ++ Value.insertNamed n j' done).map (·.1)).Perm
          ((((n, j) :: rest) ++ done).map (·.1)) := by
        refine ((hperm.append_left rest).map _).trans ?_
        simp [List.perm_middle]
      exact hmove.nodup_iff.mpr hnd
    obtain ⟨rest', hrest, hout⟩ := ih hcarries.2 hnd' h
    simp only [CarriesMembers]
    refine ⟨(n, j') :: rest', ⟨j', rest', hcarries.1 j' hj, hrest, rfl⟩, ?_⟩
    refine hout.trans ((hperm.append_left rest').trans ?_)
    exact List.perm_middle

theorem carriesItems_of_plainItems? : ∀ {items items' : List Json},
    (∀ j ∈ items, ∀ j', plain? j = some j' → Carries plainNumber? j j') →
    plainItems? items = some items' → CarriesItems plainNumber? items items' := by
  intro items
  induction items with
  | nil =>
    intro items' _ h
    simpa [plainItems?, CarriesItems, eq_comm] using h
  | cons j js ih =>
    intro items' hcarries h
    simp only [plainItems?, Option.bind_eq_bind, Option.bind_eq_some_iff, Option.pure_def,
      Option.some_inj] at h
    obtain ⟨j', hj, js', hjs, rfl⟩ := h
    rw [List.forall_mem_cons] at hcarries
    simp only [CarriesItems]
    exact ⟨j', js', hcarries.1 j' hj, ih hcarries.2 hjs, rfl⟩

/-- Plain data carry the document they are made from. -/
theorem carries_of_plain? (h : j.Regular P) : ∀ {j' : Json}, plain? j = some j' →
    Carries plainNumber? j j' := by
  induction h with
  | null | bool | string =>
    intro j' hj'
    simpa [plain?, Carries, eq_comm] using hj'
  | number =>
    intro j' hj'
    obtain ⟨b, hb, rfl⟩ := Option.map_eq_some_iff.mp hj'
    simp only [Carries]
    exact ⟨Double.text b, by rw [plainNumber?, hb, Option.map_some], rfl⟩
  | array _ ih =>
    intro j' hj'
    simp only [plain?, Option.map_eq_some_iff] at hj'
    obtain ⟨items', hitems, rfl⟩ := hj'
    simp only [Carries]
    exact ⟨items', carriesItems_of_plainItems? (fun j hj j' => ih j hj) hitems, rfl⟩
  | object hnames _ ih =>
    intro j' hj'
    simp only [plain?, Option.map_eq_some_iff] at hj'
    obtain ⟨out, hout, rfl⟩ := hj'
    obtain ⟨members', hmembers, hperm⟩ :=
      carriesMembers_of_plainMembers? (fun m hm j' => ih m hm) (by simpa using hnames) hout
    simp only [Carries]
    exact ⟨members', out, hmembers, by simpa using hperm, rfl⟩

theorem exists_plainItems? {items : List Json} (h : ∀ j ∈ items, ∃ j', plain? j = some j') :
    ∃ items', plainItems? items = some items' := by
  induction items with
  | nil => exact ⟨_, rfl⟩
  | cons j js ih =>
    rw [List.forall_mem_cons] at h
    obtain ⟨j', hj⟩ := h.1
    obtain ⟨js', hjs⟩ := ih h.2
    exact ⟨j' :: js', by simp [plainItems?, hj, hjs]⟩

theorem exists_plainMembers? {members : List (String × Json)}
    (h : ∀ m ∈ members, ∃ j', plain? m.2 = some j') (done : List (String × Json)) :
    ∃ out, plainMembers? done members = some out := by
  induction members generalizing done with
  | nil => exact ⟨done, by rw [plainMembers?]⟩
  | cons m rest ih =>
    rw [List.forall_mem_cons] at h
    obtain ⟨j', hj⟩ := h.1
    obtain ⟨out, hout⟩ := ih h.2 (Value.insertNamed m.1 j' done)
    exact ⟨out, by simp [plainMembers?, hj, hout]⟩

/-- There are plain data if each number can be written. -/
theorem exists_plain? (hP : ∀ t, P t → ∃ t', plainNumber? t = some t') (h : j.Regular P) :
    ∃ j', plain? j = some j' := by
  induction h with
  | null | bool | string => exact ⟨_, rfl⟩
  | @number t ht =>
    obtain ⟨t', ht'⟩ := hP t ht
    obtain ⟨b, hb, -⟩ := Option.map_eq_some_iff.mp ht'
    exact ⟨number (Double.text b), by simp only [plain?, hb, Option.map_some]⟩
  | array _ ih =>
    obtain ⟨items', hitems⟩ := exists_plainItems? ih
    exact ⟨array items', by simp only [plain?, hitems, Option.map_some]⟩
  | object _ _ ih =>
    obtain ⟨out, hout⟩ := exists_plainMembers? ih []
    exact ⟨object out, by simp only [plain?, hout, Option.map_some]⟩

/-! ### Fields of records -/

/-- The second row of members carries the first, in any order. -/
def Shows (f : String → Option String) (members out : List (String × Json)) : Prop :=
  ∃ members', CarriesMembers f members members' ∧ out.Perm members'

theorem carries_object {members : List (String × Json)} {j : Json} :
    Carries f (object members) j ↔ ∃ out, Shows f members out ∧ j = object out := by
  simp only [Carries, Shows]
  constructor
  · rintro ⟨members', out, hmembers, hperm, rfl⟩
    exact ⟨out, ⟨members', hmembers, hperm⟩, rfl⟩
  · rintro ⟨out, ⟨members', hmembers, hperm⟩, rfl⟩
    exact ⟨members', out, hmembers, hperm, rfl⟩

theorem carries_array {items : List Json} {j : Json} :
    Carries f (array items) j ↔ ∃ items', CarriesItems f items items' ∧ j = array items' := by
  simp only [Carries]

@[simp] theorem carries_null {j : Json} : Carries f null j ↔ j = null := by simp only [Carries]

@[simp] theorem carries_bool {b : Bool} {j : Json} : Carries f (bool b) j ↔ j = bool b := by
  simp only [Carries]

@[simp] theorem carries_string {s : String} {j : Json} :
    Carries f (string s) j ↔ j = string s := by
  simp only [Carries]

@[simp] theorem carries_number {t : String} {j : Json} :
    Carries f (number t) j ↔ ∃ t', f t = some t' ∧ j = number t' := by
  simp only [Carries]

@[simp] theorem fieldValues_nil (field : String) : fieldValues [] field = [] := rfl

@[simp] theorem fieldValues_cons (name field : String) (j : Json) (members : List (String × Json)) :
    fieldValues ((name, j) :: members) field =
      if namesField field name then j :: fieldValues members field
      else fieldValues members field := by
  simp only [fieldValues, List.filter_cons]
  split <;> rfl

@[simp] theorem fieldValues_append (members more : List (String × Json)) (field : String) :
    fieldValues (members ++ more) field = fieldValues members field ++ fieldValues more field := by
  simp [fieldValues]

@[simp] theorem fieldValues_wordMember (name field : String) (w : UInt64) :
    fieldValues (wordMember name w) field =
      if namesField field name then (if w = 0 then [] else [ofNat w.toNat]) else [] := by
  rw [wordMember]
  by_cases hw : w = 0 <;> simp [hw]

@[simp] theorem fieldValues_textMember (name field s : String) :
    fieldValues (textMember name s) field =
      if namesField field name then (if s = "" then [] else [string s]) else [] := by
  rw [textMember]
  by_cases hs : s = "" <;> simp [hs]

@[simp] theorem fieldValues_textsMember (name field : String) (ss : List String) :
    fieldValues (textsMember name ss) field =
      if namesField field name then (if ss = [] then [] else [ofStrings ss]) else [] := by
  rw [textsMember]
  by_cases hs : ss = [] <;> simp [hs]

@[simp] theorem fieldValues_flagMember (name field : String) (b : Bool) :
    fieldValues (flagMember name b) field =
      if namesField field name then (if b then [bool true] else []) else [] := by
  cases b <;> simp [flagMember]

@[simp] theorem fieldValues_ite (p : Prop) [Decidable p] (name field : String) (j : Json) :
    fieldValues (if p then [] else [(name, j)]) field =
      if namesField field name then (if p then [] else [j]) else [] := by
  by_cases hp : p <;> simp [hp]

@[simp] theorem fieldValues_option {α : Type} (o : Option α) (name field : String) (g : α → Json) :
    fieldValues (o.toList.map fun a => (name, g a)) field =
      if namesField field name then o.toList.map g else [] := by
  cases o <;> simp

/-! ### Members that may be left out -/

section members

variable {Q : String × Json → Prop}

@[simp] theorem forall_mem_textMember {name s : String} :
    (∀ m ∈ textMember name s, Q m) ↔ (s ≠ "" → Q (name, string s)) := by
  rw [textMember]
  by_cases hs : s = "" <;> simp [hs]

@[simp] theorem forall_mem_textsMember {name : String} {ss : List String} :
    (∀ m ∈ textsMember name ss, Q m) ↔ (ss ≠ [] → Q (name, ofStrings ss)) := by
  rw [textsMember]
  by_cases hs : ss = [] <;> simp [hs]

@[simp] theorem forall_mem_wordMember {name : String} {w : UInt64} :
    (∀ m ∈ wordMember name w, Q m) ↔ (w ≠ 0 → Q (name, ofNat w.toNat)) := by
  rw [wordMember]
  by_cases hw : w = 0 <;> simp [hw]

@[simp] theorem forall_mem_flagMember {name : String} {b : Bool} :
    (∀ m ∈ flagMember name b, Q m) ↔ (b → Q (name, bool true)) := by
  cases b <;> simp [flagMember]

@[simp] theorem forall_mem_ite_singleton {p : Prop} [Decidable p] {name : String} {j : Json} :
    (∀ m ∈ (if p then [] else [(name, j)]), Q m) ↔ (¬p → Q (name, j)) := by
  by_cases hp : p <;> simp [hp]

/-- Members that may be left out have no name but those they may have. -/
theorem sublist_textMember (name s : String) : ((textMember name s).map (·.1)).Sublist [name] := by
  rw [textMember]
  split <;> simp

theorem sublist_textsMember (name : String) (ss : List String) :
    ((textsMember name ss).map (·.1)).Sublist [name] := by
  rw [textsMember]
  split <;> simp

theorem sublist_wordMember (name : String) (w : UInt64) :
    ((wordMember name w).map (·.1)).Sublist [name] := by
  rw [wordMember]
  split <;> simp

theorem sublist_flagMember (name : String) (b : Bool) :
    ((flagMember name b).map (·.1)).Sublist [name] := by
  rw [flagMember]
  split <;> simp

theorem sublist_ite (p : Prop) [Decidable p] (name : String) (j : Json) :
    ((if p then [] else [(name, j)]).map (·.1)).Sublist [name] := by
  split <;> simp

theorem sublist_option {α : Type} (o : Option α) (name : String) (g : α → Json) :
    ((o.toList.map fun a => (name, g a)).map (·.1)).Sublist [name] := by
  cases o <;> simp

end members

theorem carriesItems_fieldValues {members members' : List (String × Json)} (field : String)
    (h : CarriesMembers f members members') :
    CarriesItems f (fieldValues members field) (fieldValues members' field) := by
  induction members generalizing members' with
  | nil =>
    simp only [CarriesMembers] at h
    subst h
    simp only [fieldValues_nil, CarriesItems]
  | cons m members ih =>
    obtain ⟨n, j⟩ := m
    simp only [CarriesMembers] at h
    obtain ⟨j', rest, hj, hrest, rfl⟩ := h
    rw [fieldValues_cons, fieldValues_cons]
    split
    · simp only [CarriesItems]
      exact ⟨j', _, hj, ih hrest, rfl⟩
    · exact ih hrest

theorem fieldValues_perm {members out : List (String × Json)} (h : out.Perm members)
    (field : String) : (fieldValues out field).Perm (fieldValues members field) :=
  (h.filter _).map _

section fields

variable {α : Type} {members out : List (String × Json)} {field : String}
  {read : α → Json → Option α} {start a : α}

/-- A field that is given once is given once by what carries it. -/
theorem exists_fieldValues_eq (h : Shows f members out) {j : Json}
    (hj : fieldValues members field = [j]) :
    ∃ j', Carries f j j' ∧ fieldValues out field = [j'] := by
  obtain ⟨members', hmembers, hperm⟩ := h
  have hvalues := carriesItems_fieldValues field hmembers
  simp only [hj, CarriesItems] at hvalues
  obtain ⟨j', rest, hj', rfl, hvalues⟩ := hvalues
  have hone := fieldValues_perm hperm field
  rw [hvalues, List.perm_singleton] at hone
  exact ⟨j', hj', hone⟩

/-- So it is read from that. -/
theorem exists_readField_eq (h : Shows f members out) {j : Json}
    (hj : fieldValues members field = [j]) : ∃ j', Carries f j j' ∧
      ∀ {α : Type} (read : α → Json → Option α) (start : α),
        readField out field read start = read start j' := by
  obtain ⟨j', hj', hone⟩ := exists_fieldValues_eq h hj
  refine ⟨j', hj', fun read start => ?_⟩
  simp [readField, hone]

theorem readField_of_one (h : Shows f members out) {j : Json}
    (hj : fieldValues members field = [j]) (hread : ∀ j', Carries f j j' → read start j' = some a) :
    readField out field read start = some a := by
  obtain ⟨j', hj', hfield⟩ := exists_readField_eq h hj
  rw [hfield]
  exact hread j' hj'

/-- A field that is not given stays as it is. -/
theorem readField_of_none (h : Shows f members out) (hnone : fieldValues members field = []) :
    readField out field read start = some start := by
  obtain ⟨members', hmembers, hperm⟩ := h
  have hvalues := carriesItems_fieldValues field hmembers
  simp only [hnone, CarriesItems] at hvalues
  have hone := fieldValues_perm hperm field
  rw [hvalues, List.perm_nil] at hone
  simp [readField, hone]

end fields

/-! ### Depth -/

theorem depth_lt_of_mem {items : List Json} {k : Json} (h : k ∈ items) :
    k.depth < (array items).depth :=
  Nat.lt_succ_of_le (itemsDepth_le.mp le_rfl k h)

theorem depth_lt_of_field (field : String) {members : List (String × Json)} {j : Json}
    (h : fieldValues members field = [j]) : j.depth < (object members).depth := by
  have hmem : j ∈ fieldValues members field := by simp [h]
  obtain ⟨m, hm, rfl⟩ := List.mem_map.mp hmem
  exact Nat.lt_succ_of_le (membersDepth_le.mp le_rfl m (List.mem_of_mem_filter hm))

/-! ### Lists -/

/-- What a list is read as, if it is known what its items are read as. -/
theorem readList_carried {α : Type} {blank : α} {read : α → Json → Option α} {g : α → Option α}
    {l : List α} {items : List Json}
    (h : List.Forall₂ (fun a i => ∀ j, Carries f i j → read blank j = g a) l items) {j : Json}
    (hj : Carries f (array items) j) : readList blank read [] j = l.mapM g := by
  obtain ⟨items', hitems', rfl⟩ := carries_array.mp hj
  clear hj
  rw [readList]
  induction h generalizing items' with
  | nil =>
    simp only [CarriesItems] at hitems'
    rw [hitems']
    rfl
  | cons ha _ ih =>
    simp only [CarriesItems] at hitems'
    obtain ⟨j, js, hj, hjs, rfl⟩ := hitems'
    have hrest := ih js hjs
    simp [readItems, ha j hj, hrest]

/-- A list is read back if its items are. -/
theorem readList_of_forall {α : Type} {blank : α} {read : α → Json → Option α} {write : α → Json}
    {l : List α} (h : ∀ a ∈ l, ∀ j, Carries f (write a) j → read blank j = some a) {j : Json}
    (hj : Carries f (array (l.map write)) j) : readList blank read [] j = some l := by
  have hitems : List.Forall₂ (fun a i => ∀ j, Carries f i j → read blank j = some a) l
      (l.map write) := List.forall₂_map_right_iff.mpr (List.forall₂_same.mpr h)
  rw [readList_carried hitems hj]
  clear hitems hj h
  induction l with
  | nil => rfl
  | cons a l ih => simp [ih]

/-! ### Fields of each kind -/

section kinds

variable {members out : List (String × Json)}

theorem readText_carried {s old : String} {j : Json} (h : Carries f (string s) j) :
    readText old j = some s := by
  rw [carries_string.mp h, readText]

/-- A text that is always given. -/
theorem readField_string (field s : String) (h : Shows f members out)
    (hvalues : fieldValues members field = [string s]) {old : String} :
    readField out field readText old = some s :=
  readField_of_one h hvalues fun _ => readText_carried

/-- A text that is left out when it is empty. -/
theorem readField_text (field s : String) (h : Shows f members out)
    (hvalues : fieldValues members field = if s = "" then [] else [string s]) :
    readField out field readText "" = some s := by
  by_cases hs : s = ""
  · rw [readField_of_none h (by rw [hvalues, if_pos hs]), hs]
  · exact readField_string field s h (by rw [hvalues, if_neg hs])

/-- Texts that are left out when there are none. -/
theorem readField_texts (field : String) (ss : List String) (h : Shows f members out)
    (hvalues : fieldValues members field = if ss = [] then [] else [ofStrings ss]) :
    readField out field (readList "" readText) [] = some ss := by
  by_cases hs : ss = []
  · rw [readField_of_none h (by rw [hvalues, if_pos hs]), hs]
  · exact readField_of_one h (by rw [hvalues, if_neg hs, ofStrings]) fun _ =>
      readList_of_forall fun _ _ _ => readText_carried

/-- A truth value that is left out when it is false. -/
theorem readField_flag (field : String) (b : Bool) (h : Shows f members out)
    (hvalues : fieldValues members field = if b then [bool true] else []) :
    readField out field readBool false = some b := by
  cases b with
  | false => exact readField_of_none h hvalues
  | true =>
    refine readField_of_one h hvalues fun j hj => ?_
    rw [carries_bool.mp hj, readBool]

variable {α : Type} {blank : α} {read : α → Json → Option α} {write : α → Json}

/-- A record that may be left out. -/
theorem readField_option (field : String) (write : α → Json) (h : Shows f members out) {o : Option α} {g : α → Option α}
    (hvalues : fieldValues members field = o.toList.map write)
    (hobject : ∀ a, ∃ ms, write a = object ms)
    (hread : ∀ a ∈ o, ∀ j, Carries f (write a) j → read blank j = g a) :
    readField out field (readOption blank read) none = o.elim (some none) fun a => (g a).map some := by
  cases o with
  | none => exact readField_of_none h hvalues
  | some a =>
    obtain ⟨j, hj, hfield⟩ := exists_readField_eq h hvalues
    obtain ⟨ms, hms⟩ := hobject a
    have hobj := hms ▸ hj
    obtain ⟨ms', -, rfl⟩ := carries_object.mp hobj
    rw [hfield, Option.elim_some, ← hread a rfl _ hj]
    rfl

/-- A list that may not be given. -/
theorem readListOption_carried {o : Option (List α)}
    (hread : ∀ l ∈ o, ∀ a ∈ l, ∀ j, Carries f (write a) j → read blank j = some a) {j : Json}
    (hj : Carries f (o.elim null fun l => array (l.map write)) j) :
    readListOption blank read none j = some o := by
  cases o with
  | none =>
    rw [carries_null.mp hj]
    rfl
  | some l =>
    have hlist := readList_of_forall (hread l rfl) hj
    obtain ⟨items, -, rfl⟩ := carries_array.mp hj
    rw [readListOption, Option.getD_none, hlist, Option.map_some]
    simp

end kinds

/-! ### Words -/

/-- What a word that is left out when it is zero is read as, after it was
written anew by `f`. -/
def rereadWord? (f : String → Option String) (w : UInt64) : Option UInt64 :=
  if w = 0 then some 0 else (f (toString w.toNat)).bind fun t => readWord 0 (.number t)

theorem wholeNumber?_toString (n : Nat) : wholeNumber? (toString n) = some n := by
  have hlist : (toString n).toList = Nat.toDigits 10 n := by
    rw [Nat.toString_eq_ofList_toDigits, String.toList_ofList]
  have hdigit : ∀ {c : Char}, c.isDigit → (decide ('0' ≤ c) && decide (c ≤ '9')) = true := by
    intro c hc
    simp only [Char.isDigit, Bool.and_eq_true, decide_eq_true_eq] at hc ⊢
    exact ⟨hc.1, hc.2⟩
  have hdigits : (Nat.toDigits 10 n).all (fun c => '0' ≤ c && c ≤ '9') = true :=
    List.all_eq_true.mpr fun c hc => hdigit (Text.isDigit_of_mem_toDigits c hc)
  have hne : (toString n).isEmpty = false := by
    rw [String.isEmpty_eq_false_iff, ne_eq, ← String.toList_eq_nil_iff, hlist]
    exact Nat.toDigits_ne_nil
  rw [wholeNumber?, hlist, hdigits, hne]
  exact congrArg some (Decimal.decimalValue_toDigits n)

theorem rereadWord?_some (w : UInt64) : rereadWord? some w = some w := by
  by_cases hw : w = 0
  · simp [rereadWord?, hw]
  · have hlt : w.toNat < UInt64.size := w.toNat_lt
    rw [rereadWord?, if_neg hw, Option.bind_some, readWord, wholeNumber?_toString, Option.bind_some,
      if_pos hlt, UInt64.ofNat_toNat]

/-- A field that holds a word. -/
theorem readField_word {members out : List (String × Json)} (field : String) (w : UInt64)
    (h : Shows f members out)
    (hvalues : fieldValues members field = if w = 0 then [] else [ofNat w.toNat]) :
    readField out field readWord 0 = rereadWord? f w := by
  rw [rereadWord?]
  split at hvalues
  · rw [readField_of_none h hvalues, if_pos ‹w = 0›]
  · obtain ⟨j', hj', hread⟩ := exists_readField_eq h hvalues
    obtain ⟨t, ht, rfl⟩ := carries_number.mp hj'
    rw [hread, if_neg ‹w ≠ 0›, ht, Option.bind_some]

end SolidityCanvas.Json
