/-
What the content text of a canvas says.

* `described_of_parse`: the properties of a canvas that is read from a
  document have values that documents describe;
* `eq_of_contentText_eq`: the content text of such canvases determines the
  instances and the connections, if no two numbers in them are written alike.
-/
import SolidityCanvas.Canvas.Json
import SolidityCanvas.Proofs.Value.Canonical
import SolidityCanvas.Proofs.Value.Named

namespace SolidityCanvas

/-! ### Numbers in values -/

namespace Value

mutual

/-- The numbers in a value. -/
def numbers : Value → List Number
  | number n => [n]
  | list _ items | set _ items | tuple items => itemsNumbers items
  | map _ entries | object entries => entriesNumbers entries
  | _ => []

/-- The numbers in some values. -/
def itemsNumbers : List Value → List Number
  | [] => []
  | v :: vs => numbers v ++ itemsNumbers vs

/-- The numbers in named values. -/
def entriesNumbers : List (String × Value) → List Number
  | [] => []
  | (_, v) :: vs => numbers v ++ entriesNumbers vs

end

variable {n : Number} {v : Value}

theorem mem_itemsNumbers {items : List Value} :
    n ∈ itemsNumbers items ↔ ∃ v ∈ items, n ∈ v.numbers := by
  induction items with
  | nil => simp [itemsNumbers]
  | cons v items ih => simp [itemsNumbers, ih]

theorem mem_entriesNumbers {entries : List (String × Value)} :
    n ∈ entriesNumbers entries ↔ ∃ e ∈ entries, n ∈ e.2.numbers := by
  induction entries with
  | nil => simp [entriesNumbers]
  | cons e entries ih =>
    obtain ⟨m, v⟩ := e
    simp [entriesNumbers, ih]

theorem Plain.mem_of_mem_numbers {N : Set Number} {form : Option ValueType} {v : Value}
    (h : Plain N form v) : ∀ n ∈ v.numbers, n ∈ N := by
  induction h with
  | string | bool | null => simp [numbers]
  | number hn =>
    intro n hmem
    rw [numbers, List.mem_singleton] at hmem
    exact hmem ▸ hn
  | tuple _ _ ih | list _ _ _ ih =>
    intro n hmem
    rw [numbers, mem_itemsNumbers] at hmem
    obtain ⟨w, hw, hn⟩ := hmem
    exact ih w hw n hn
  | object _ ih =>
    intro n hmem
    rw [numbers, mem_entriesNumbers] at hmem
    obtain ⟨e, he, hn⟩ := hmem
    exact ih e he n hn

/-! ### Values of documents -/

/-- The value is one that a document describes. -/
def Described (v : Value) : Prop := Plain {n | n ∈ v.numbers} none v

theorem described_tuple {items : List Value} (h : ∀ v ∈ items, Described v) :
    Described (tuple items) := by
  refine .tuple rfl fun v hv => (h v hv).mono fun n hn => ?_
  change n ∈ (tuple items).numbers
  rw [numbers, mem_itemsNumbers]
  exact ⟨v, hv, hn⟩

theorem described_object {entries : List (String × Value)} (h : ∀ e ∈ entries, Described e.2) :
    Described (object entries) := by
  refine .object fun e he => (h e he).mono fun n hn => ?_
  change n ∈ (object entries).numbers
  rw [numbers, mem_entriesNumbers]
  exact ⟨e, he, hn⟩

mutual

theorem described_of_ofJson? : ∀ (j : Json) {v : Value}, ofJson? j = some v → Described v
  | .null, v, h => by
    obtain rfl := Option.some_inj.mp h
    exact .null
  | .bool b, v, h => by
    obtain rfl := Option.some_inj.mp h
    exact .bool b
  | .number t, v, h => by
    obtain ⟨n, _, rfl⟩ := Option.map_eq_some_iff.mp h
    exact .number (List.mem_singleton_self n)
  | .string s, v, h => by
    obtain rfl := Option.some_inj.mp h
    exact .string _
  | .array items, v, h => by
    obtain ⟨vs, hvs, rfl⟩ := Option.map_eq_some_iff.mp h
    exact described_tuple (described_of_ofItems? items hvs)
  | .object members, v, h => by
    simp only [ofJson?, Option.bind_eq_bind, Option.bind_eq_some_iff] at h
    obtain ⟨named, hnamed, h⟩ := h
    split at h
    · exact absurd h (by simp)
    split at h
    · exact absurd h (by simp)
    obtain rfl := Option.some_inj.mp h
    exact described_object fun e he =>
      described_of_ofMembers? members hnamed e (mem_of_mem_sortNamed he)

theorem described_of_ofItems? : ∀ (js : List Json) {vs : List Value}, ofItems? js = some vs →
    ∀ v ∈ vs, Described v
  | [], vs, h => by
    obtain rfl := Option.some_inj.mp h
    exact fun _ hv => absurd hv List.not_mem_nil
  | j :: js, vs, h => by
    simp only [ofItems?, Option.bind_eq_bind, Option.bind_eq_some_iff, Option.pure_def,
      Option.some_inj] at h
    obtain ⟨v, hv, rest, hrest, rfl⟩ := h
    intro w hw
    rcases List.mem_cons.mp hw with rfl | hw
    · exact described_of_ofJson? j hv
    · exact described_of_ofItems? js hrest w hw

theorem described_of_ofMembers? : ∀ (members : List (String × Json))
    {named : List (String × Value)}, ofMembers? members = some named →
    ∀ e ∈ named, Described e.2
  | [], named, h => by
    obtain rfl := Option.some_inj.mp h
    exact fun _ he => absurd he List.not_mem_nil
  | (n, j) :: members, named, h => by
    simp only [ofMembers?, Option.bind_eq_bind, Option.bind_eq_some_iff, Option.pure_def,
      Option.some_inj] at h
    obtain ⟨v, hv, rest, hrest, rfl⟩ := h
    intro e he
    rcases List.mem_cons.mp he with rfl | he
    · exact described_of_ofJson? j hv
    · exact described_of_ofMembers? members hrest e he

end

end Value

/-! ### Records of documents -/

namespace Json

variable {α : Type} {P : α → Prop} {read : α → Json → Option α}

/-- What reading a field keeps, if reading each of its values does. -/
theorem readField_induction_of_mem {members : List (String × Json)}
    (hread : ∀ {a j b}, (∃ m ∈ members, m.2 = j) → P a → read a j = some b → P b) {field : String}
    {start a : α} (hstart : P start) (h : readField members field read start = some a) : P a := by
  rw [readField] at h
  have hmem : ∀ j ∈ fieldValues members field, ∃ m ∈ members, m.2 = j := by
    intro j hj
    obtain ⟨m, hm, rfl⟩ := List.mem_map.mp hj
    exact ⟨m, List.mem_of_mem_filter hm, rfl⟩
  generalize fieldValues members field = values at h hmem
  induction values generalizing start with
  | nil =>
    obtain rfl := Option.some_inj.mp h
    exact hstart
  | cons j values ih =>
    rw [List.forall_mem_cons] at hmem
    rw [List.foldlM_cons, Option.bind_eq_bind, Option.bind_eq_some_iff] at h
    obtain ⟨b, hb, h⟩ := h
    exact ih (hread hmem.1 hstart hb) h hmem.2

/-- What reading keeps, reading a field keeps. -/
theorem readField_induction (hread : ∀ {a j b}, P a → read a j = some b → P b)
    {members : List (String × Json)} {field : String} {start a : α} (hstart : P start)
    (h : readField members field read start = some a) : P a :=
  readField_induction_of_mem (fun _ => hread) hstart h

/-- What reading a list keeps for its items, if reading each of them does. -/
theorem readList_induction_of_mem {j : Json}
    (hread : ∀ {a i b}, (∃ items, j = array items ∧ i ∈ items) → P a → read a i = some b → P b)
    {blank : α} (hblank : P blank) {old new : List α} (hold : ∀ a ∈ old, P a)
    (h : readList blank read old j = some new) : ∀ a ∈ new, P a := by
  have hitems : ∀ {js : List Json}, (∀ i ∈ js, ∃ items, j = array items ∧ i ∈ items) →
      ∀ {old new : List α}, (∀ a ∈ old, P a) →
      readItems blank read old js = some new → ∀ a ∈ new, P a := by
    intro js
    induction js with
    | nil =>
      intro _ old new _ h
      rw [readItems] at h
      obtain rfl := Option.some_inj.mp h
      exact fun _ ha => absurd ha List.not_mem_nil
    | cons i js ih =>
      intro hjs old new hold h
      rw [List.forall_mem_cons] at hjs
      simp only [readItems, Option.bind_eq_bind, Option.bind_eq_some_iff, Option.pure_def,
        Option.some_inj] at h
      obtain ⟨b, hb, rest, hrest, rfl⟩ := h
      -- An item is read over the one that stood in its place before.
      have hhead : P (old.headD blank) := by
        cases old with
        | nil => exact hblank
        | cons a old => exact hold a List.mem_cons_self
      intro a ha
      rcases List.mem_cons.mp ha with rfl | ha
      · exact hread hjs.1 hhead hb
      · exact ih hjs.2 (fun x hx => hold x (List.mem_of_mem_tail hx)) hrest a ha
  match j, h with
  | array items, h => exact hitems (fun i hi => ⟨items, rfl, hi⟩) hold h
  | null, h =>
    obtain rfl := Option.some_inj.mp h
    exact fun _ ha => absurd ha List.not_mem_nil

/-- What reading keeps, reading a list keeps for its items. -/
theorem readList_induction (hread : ∀ {a j b}, P a → read a j = some b → P b) {blank : α}
    (hblank : P blank) {old new : List α} {j : Json} (hold : ∀ a ∈ old, P a)
    (h : readList blank read old j = some new) : ∀ a ∈ new, P a :=
  readList_induction_of_mem (fun _ => hread) hblank hold h

end Json

/-! ### Canvases of documents -/

/-- All values are such as documents describe. -/
def Bag.Described (b : Bag) : Prop := ∀ e ∈ b, e.2.Described

theorem Bag.described_of_ofMembers? {members : List (String × Json)} {b : Bag}
    (h : Bag.ofMembers? members = some b) : b.Described := by
  simp only [ofMembers?, Option.bind_eq_bind, Option.bind_eq_some_iff, Option.pure_def,
    Option.some_inj] at h
  obtain ⟨entries, hentries, rfl⟩ := h
  intro e he
  obtain ⟨⟨n, j⟩, _, hj⟩ := exists_mem_of_mapM hentries e (Value.mem_of_mem_sortNamed he)
  obtain ⟨v, hv, hve⟩ := Option.bind_eq_some_iff.mp hj
  obtain rfl := Option.some_inj.mp hve
  exact Value.described_of_ofJson? j hv

namespace Canvas

theorem described_of_readProperties {old new : Bag} {j : Json} (hold : old.Described)
    (h : readProperties old j = some new) : new.Described := by
  match j, h with
  | .object members, h =>
    obtain ⟨b, hb, rfl⟩ := Option.map_eq_some_iff.mp h
    intro e he
    rcases List.mem_append.mp (Value.mem_of_mem_sortNamed he) with he | he
    · exact hold e he
    · exact Bag.described_of_ofMembers? hb e he
  | .null, h =>
    obtain rfl := Option.some_inj.mp h
    exact fun _ he => absurd he List.not_mem_nil

theorem described_of_readInstance {old new : Instance} {j : Json}
    (hold : old.properties.Described) (h : readInstance old j = some new) :
    new.properties.Described := by
  match j, h with
  | .object members, h =>
    simp only [readInstance, Option.bind_eq_bind, Option.bind_eq_some_iff, Option.pure_def,
      Option.some_inj] at h
    obtain ⟨_, _, _, _, properties, hproperties, rfl⟩ := h
    exact Json.readField_induction described_of_readProperties hold hproperties
  | .null, h =>
    obtain rfl := Option.some_inj.mp h
    exact hold

/-- **A canvas that is read from a document has values that documents
describe.** -/
theorem described_of_ofJson {j : Json} {c : Canvas} (h : ofJson j = .ok c) :
    ∀ i ∈ c.instances, i.properties.Described := by
  rw [ofJson] at h
  split at h
  · exact absurd h (by simp)
  rename_i c' hshape
  split at h
  · exact absurd h (by simp)
  obtain rfl := Except.ok.inj h
  match j, hshape with
  | .object members, hshape =>
    simp only [readShape?, Option.bind_eq_bind, Option.bind_eq_some_iff, Option.pure_def,
      Option.some_inj] at hshape
    obtain ⟨instances, hinstances, _, _, _, _, _, _, rfl⟩ := hshape
    refine Json.readField_induction
      (P := fun is : List Instance => ∀ i ∈ is, i.properties.Described) (fun hold hnew => ?_)
      (fun _ hi => absurd hi List.not_mem_nil) hinstances
    exact Json.readList_induction (P := fun i : Instance => i.properties.Described)
      described_of_readInstance (fun _ he => absurd he List.not_mem_nil) hold hnew
  | .null, hshape =>
    obtain rfl := Option.some_inj.mp hshape
    exact fun _ hi => absurd hi List.not_mem_nil

theorem described_of_parse {s : String} {c : Canvas} (h : parse s = .ok c) :
    ∀ i ∈ c.instances, i.properties.Described := by
  rw [parse] at h
  split at h
  · exact absurd h (by simp)
  · exact described_of_ofJson h

/-! ### Content texts -/

/-- The texts that an instance is written with. -/
def instanceParts (i : Instance) : String × String × String :=
  (i.id, i.template, i.properties.canonical)

/-- Three texts with their lengths in front. -/
def partsChars (p : String × String × String) : List Char :=
  (lengthPrefixed p.1).toList ++ ((lengthPrefixed p.2.1).toList ++ (lengthPrefixed p.2.2).toList)

theorem prefixFree_partsChars : Text.PrefixFree partsChars := by
  intro p q s t h
  simp only [partsChars, List.append_assoc] at h
  obtain ⟨h₁, h⟩ := Text.prefixFree_lengthPrefixed h
  obtain ⟨h₂, h⟩ := Text.prefixFree_lengthPrefixed h
  obtain ⟨h₃, h⟩ := Text.prefixFree_lengthPrefixed h
  exact ⟨Prod.ext h₁ (Prod.ext h₂ h₃), h⟩

theorem prefixFree_connectionText : Text.PrefixFree fun k => (connectionText k).toList := by
  rintro ⟨a, b⟩ ⟨a', b'⟩ s t h
  simp only [connectionText, String.toList_append, List.append_assoc] at h
  obtain ⟨hsource, h⟩ := Text.prefixFree_lengthPrefixed h
  obtain ⟨htarget, h⟩ := Text.prefixFree_lengthPrefixed h
  exact ⟨by rw [hsource, htarget], h⟩

theorem toList_instanceText (i : Instance) :
    (instanceText i).toList = partsChars (instanceParts i) := by
  simp only [instanceText, partsChars, instanceParts, String.toList_append, List.append_assoc]

theorem toList_contentText (c : Canvas) : c.contentText.toList =
    "instances ".toList ++ ((toString c.instances.length).toList ++
      ('\n' :: ((c.instances.map instanceParts).flatMap partsChars ++
        ("connections ".toList ++ ((toString c.connections.length).toList ++
          ('\n' :: c.connections.flatMap fun k => (connectionText k).toList)))))) := by
  have hline : "\n".toList = ['\n'] := rfl
  delta contentText
  simp only [String.toList_append, String.toList_join, List.flatMap_map, toList_instanceText,
    hline, List.append_assoc, List.cons_append, List.nil_append]

theorem contentText_congr {c d : Canvas} (hinstances : c.instances = d.instances)
    (hconnections : c.connections = d.connections) : c.contentText = d.contentText := by
  delta contentText
  rw [hinstances, hconnections]

/-- **The content text determines the texts of the instances, and the
connections.** -/
theorem parts_eq_of_contentText_eq {c d : Canvas} (h : c.contentText = d.contentText) :
    c.instances.map instanceParts = d.instances.map instanceParts ∧
      c.connections = d.connections := by
  have hline : ∀ s, Text.Stops (·.isDigit) ('\n' :: s) := fun s => Text.stops_cons (by decide) s
  rw [← String.toList_inj, toList_contentText, toList_contentText] at h
  obtain ⟨hlen, h⟩ := Text.eq_of_digits_append (hline _) (hline _) (List.append_cancel_left h)
  -- The number of instances stands in front, so that their texts can be cut off.
  obtain ⟨hparts, h⟩ := prefixFree_partsChars.flatMap (by simp [hlen]) (List.cons.inj h).2
  obtain ⟨hlen', h⟩ := Text.eq_of_digits_append (hline _) (hline _) (List.append_cancel_left h)
  have hconnections := (List.cons.inj h).2
  rw [← List.append_nil (List.flatMap _ _), ← List.append_nil (List.flatMap _ d.connections)]
    at hconnections
  exact ⟨hparts, (prefixFree_connectionText.flatMap hlen' hconnections).1⟩

/-- The numbers in the properties. -/
def numbers (c : Canvas) : Set Number :=
  {n | ∃ i ∈ c.instances, ∃ e ∈ i.properties, n ∈ e.2.numbers}

/-- **The content text determines the instances and the connections**, if the
values of properties can be told apart. -/
theorem eq_of_told {c d : Canvas} (htold : ∀ i ∈ c.instances, ∀ e ∈ i.properties,
      ∀ i' ∈ d.instances, ∀ e' ∈ i'.properties,
        Text.Told Number.IsNumeral Value.canonicalChars e.2 e'.2)
    (h : c.contentText = d.contentText) :
    c.instances = d.instances ∧ c.connections = d.connections := by
  obtain ⟨hparts, hconnections⟩ := parts_eq_of_contentText_eq h
  have hforall : ∀ l : List Instance,
      List.Forall₂ (fun i p => instanceParts i = p) l (l.map instanceParts) :=
    fun l => List.forall₂_map_right_iff.mpr (List.forall₂_same.mpr fun _ _ => rfl)
  refine ⟨eq_of_forall₂ (hforall c.instances) (hparts ▸ hforall d.instances) ?_, hconnections⟩
  rintro ⟨id, template, properties⟩ hi ⟨id', template', properties'⟩ hi' p hp hp'
  simp only [instanceParts, ← hp', Prod.mk.injEq] at hp
  obtain ⟨rfl, rfl, hcanonical⟩ := hp
  -- Ids and templates are there as they are, properties by their canonical text.
  have hproperties : properties = properties' :=
    Bag.canonical_inj (fun e he e' he' => htold _ hi e he _ hi' e' he') hcanonical
  rw [hproperties]

/-- The same of canvases that are read from documents, if the numbers in them
can be told apart. -/
theorem eq_of_contentText_eq {N : Set Number} (hN : Number.Distinct N) {c d : Canvas}
    (hc : ∀ i ∈ c.instances, i.properties.Described)
    (hd : ∀ i ∈ d.instances, i.properties.Described) (hcN : c.numbers ⊆ N) (hdN : d.numbers ⊆ N)
    (h : c.contentText = d.contentText) :
    c.instances = d.instances ∧ c.connections = d.connections := by
  refine eq_of_told (fun i hi e he i' hi' e' he' => ?_) h
  exact ((hc _ hi e he).mono fun n hn => hcN ⟨_, hi, e, he, hn⟩).told_canonicalChars hN
    ((hd _ hi' e' he').mono fun n hn => hdN ⟨_, hi', e', he', hn⟩)

end Canvas

end SolidityCanvas
