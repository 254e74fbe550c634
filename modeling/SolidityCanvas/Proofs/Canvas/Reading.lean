/-
Canvases that are written and read back.

* `loaded_of_parse`: what is known of a canvas that was read from a document;
* `readShape?_carried`: what the written form of a canvas is read as, after its
  numbers were written anew in some way (`reread?`);
* `reread?_eq_self_iff`: this is the canvas itself exactly if its numbers come
  back.
-/
import SolidityCanvas.Proofs.Timestamp.RoundTrip
import SolidityCanvas.Proofs.Value.Reading

namespace SolidityCanvas

open Json (Carries CarriesItems CarriesMembers Shows)

/-! ### Canvases that were read -/

/-- The names ascend, and each value is described by a document that leaves
some room for others around it. -/
structure Bag.Loaded (room : Nat) (b : Bag) : Prop where
  ascending : Value.Ascending b
  described : ∀ e ∈ b, ∃ j, Value.ofJson? j = some e.2 ∧ j.depth + room ≤ Json.maxDepth

/-- What is known of a canvas that was read from a document. -/
structure Canvas.Loaded (c : Canvas) : Prop where
  ids : ∀ i ∈ c.instances, i.id.isEmpty = false
  properties : ∀ i ∈ c.instances, i.properties.Loaded 4
  timestamp : ∀ t ∈ c.timestamp, t.WellFormed ∧ t.isZero = false

namespace Canvas

theorem loaded_nil (room : Nat) : Bag.Loaded room [] :=
  ⟨List.Pairwise.nil, fun _ he => absurd he List.not_mem_nil⟩

theorem loaded_of_readProperties {room : Nat} {old new : Bag} {j : Json}
    (hj : j.depth + room ≤ Json.maxDepth + 1) (hold : old.Loaded room)
    (h : readProperties old j = some new) : new.Loaded room := by
  match j, h with
  | .object members, h =>
    obtain ⟨b, hb, rfl⟩ := Option.map_eq_some_iff.mp h
    refine ⟨Value.ascending_sortNamed _, fun e he => ?_⟩
    rcases List.mem_append.mp (Value.mem_of_mem_sortNamed he) with he | he
    · exact hold.described e he
    · simp only [Bag.ofMembers?, Option.bind_eq_bind, Option.bind_eq_some_iff, Option.pure_def,
        Option.some_inj] at hb
      obtain ⟨entries, hentries, rfl⟩ := hb
      obtain ⟨⟨n, k⟩, hmem, hk⟩ := exists_mem_of_mapM hentries e (Value.mem_of_mem_sortNamed he)
      obtain ⟨v, hv, hve⟩ := Option.bind_eq_some_iff.mp hk
      obtain rfl := Option.some_inj.mp hve
      have hdepth := Json.membersDepth_le.mp le_rfl (n, k) hmem
      rw [Json.depth] at hj
      exact ⟨k, hv, by simp only at hdepth; omega⟩
  | .null, h =>
    obtain rfl := Option.some_inj.mp h
    exact loaded_nil room

theorem loaded_of_readInstance {room : Nat} {old new : Instance} {j : Json}
    (hj : j.depth + room ≤ Json.maxDepth + 2) (hold : old.properties.Loaded room)
    (h : readInstance old j = some new) : new.properties.Loaded room := by
  match j, h with
  | .object members, h =>
    simp only [readInstance, Option.bind_eq_bind, Option.bind_eq_some_iff, Option.pure_def,
      Option.some_inj] at h
    obtain ⟨_, _, _, _, properties, hproperties, rfl⟩ := h
    refine Json.readField_induction_of_mem (fun {a k b} hk ha hb => ?_) hold hproperties
    obtain ⟨m, hm, rfl⟩ := hk
    have hdepth := Json.membersDepth_le.mp le_rfl m hm
    rw [Json.depth] at hj
    exact loaded_of_readProperties (by omega) ha hb
  | .null, h =>
    obtain rfl := Option.some_inj.mp h
    exact hold

theorem wellFormed_of_readTimestamp {old new : Option Timestamp} {j : Json}
    (h : readTimestamp old j = some new) : ∀ t ∈ new, t.WellFormed := by
  match j, h with
  | .string s, h =>
    obtain ⟨t, ht, rfl⟩ := Option.map_eq_some_iff.mp h
    rintro _ ⟨⟩
    exact Timestamp.wellFormed_of_parse? ht
  | .null, h =>
    obtain rfl := Option.some_inj.mp h
    simp

theorem loaded_of_readShape? {j : Json} {c : Canvas} (hj : j.depth ≤ Json.maxDepth)
    (h : readShape? j = some c) : (∀ i ∈ c.instances, i.properties.Loaded 4) ∧
      ∀ t ∈ c.timestamp, t.WellFormed ∧ t.isZero = false := by
  match j, h with
  | .object members, h =>
    simp only [readShape?, Option.bind_eq_bind, Option.bind_eq_some_iff, Option.pure_def,
      Option.some_inj] at h
    obtain ⟨instances, hinstances, _, _, _, _, timestamp, htimestamp, rfl⟩ := h
    rw [Json.depth] at hj
    constructor
    · refine Json.readField_induction_of_mem
        (P := fun is : List Instance => ∀ i ∈ is, i.properties.Loaded 4)
        (fun {a k b} hk hold hnew => ?_) (fun _ hi => absurd hi List.not_mem_nil) hinstances
      obtain ⟨m, hm, rfl⟩ := hk
      have hdepth := Json.membersDepth_le.mp le_rfl m hm
      refine Json.readList_induction_of_mem (P := fun i : Instance => i.properties.Loaded 4)
        (fun {a i b} hi ha hb => ?_) (loaded_nil 4) hold hnew
      obtain ⟨items, harray, hi⟩ := hi
      have hitem := Json.itemsDepth_le.mp le_rfl i hi
      rw [harray, Json.depth] at hdepth
      exact loaded_of_readInstance (by omega) ha hb
    · intro t ht
      obtain ⟨ht, hzero⟩ := Option.mem_filter_iff.mp ht
      refine ⟨?_, by simpa using hzero⟩
      exact Json.readField_induction (P := fun o : Option Timestamp => ∀ t ∈ o, t.WellFormed)
        (fun _ hnew => wellFormed_of_readTimestamp hnew) (by simp) htimestamp t ht
  | .null, h =>
    obtain rfl := Option.some_inj.mp h
    exact ⟨fun _ hi => absurd hi List.not_mem_nil, fun _ ht => absurd ht (by simp)⟩

/-- **What is known of a canvas that was read.** -/
theorem loaded_of_parse {s : String} {c : Canvas} (h : parse s = .ok c) : c.Loaded := by
  rw [parse] at h
  split at h
  · cases h
  rename_i j hj
  rw [ofJson] at h
  split at h
  · cases h
  rename_i c' hshape
  split at h
  · cases h
  rename_i hids
  obtain rfl := Except.ok.inj h
  obtain ⟨hproperties, htimestamp⟩ := loaded_of_readShape? (Json.depth_le_of_parse? hj) hshape
  refine ⟨fun i hi => ?_, hproperties, htimestamp⟩
  simpa using List.find?_eq_none.mp hids i hi

theorem Loaded.described {c : Canvas} (h : c.Loaded) :
    ∀ i ∈ c.instances, ∀ e ∈ i.properties, e.2.Described := by
  intro i hi e he
  obtain ⟨j, hj, -⟩ := (h.properties i hi).described e he
  exact Value.described_of_ofJson? j hj

theorem Loaded.isRead {c : Canvas} (h : c.Loaded) : ∀ n ∈ c.numbers, n.IsRead := by
  rintro n ⟨i, hi, e, he, hn⟩
  obtain ⟨j, hj, -⟩ := (h.properties i hi).described e he
  exact Value.isRead_of_ofJson? hj n hn

end Canvas

/-! ### What comes back -/

/-- Names ascend and values are normal. -/
structure Bag.Normal (b : Bag) : Prop where
  ascending : Value.Ascending b
  values : ∀ e ∈ b, e.2.Normal

/-- All properties are normal, and the timestamp is one that is read. -/
structure Canvas.Normal (c : Canvas) : Prop where
  properties : ∀ i ∈ c.instances, i.properties.Normal
  timestamp : ∀ t ∈ c.timestamp, t.WellFormed ∧ t.isZero = false

theorem Canvas.Loaded.normal {c : Canvas} (h : c.Loaded) : c.Normal := by
  refine ⟨fun i hi => ⟨(h.properties i hi).ascending, fun e he => ?_⟩, h.timestamp⟩
  obtain ⟨j, hj, -⟩ := (h.properties i hi).described e he
  exact Value.normal_of_ofJson? hj

namespace Canvas

section reread

variable (f : String → Option String)

/-- What an instance is read as, after its numbers were written anew. -/
def rereadInstance? (i : Instance) : Option Instance :=
  (Value.rereadEntries? f i.properties).map fun properties => { i with properties }

/-- What a canvas is read as, after its numbers were written anew. -/
def reread? (c : Canvas) : Option Canvas := do
  let instances ← c.instances.mapM (rereadInstance? f)
  let version ← Json.rereadWord? f c.version
  return { c with instances, version }

end reread

variable {f : String → Option String}

theorem ofMembers?_eq (members : List (String × Json)) :
    Bag.ofMembers? members = (Value.ofMembers? members).map Value.sortNamed := by
  have hmapM : members.mapM (fun m => do
      let v ← Value.ofJson? m.2
      return (m.1, v)) = Value.ofMembers? members := by
    induction members with
    | nil => rfl
    | cons m members ih =>
      obtain ⟨n, j⟩ := m
      rw [List.mapM_cons, ih, Value.ofMembers?]
      dsimp only
      cases Value.ofJson? j <;> rfl
  calc Bag.ofMembers? members
      = (members.mapM fun m => do
          let v ← Value.ofJson? m.2
          return (m.1, v)) >>= fun entries => return Bag.ofList entries := rfl
    _ = (Value.ofMembers? members).map Value.sortNamed := by
        rw [hmapM]
        cases Value.ofMembers? members <;> rfl

theorem readProperties_carried {b : Bag} (hb : b.Normal) {members : List (String × Json)}
    (hmembers : Value.entriesToJson? b = some members) {j : Json}
    (hc : Carries f (.object members) j) : readProperties [] j = Value.rereadEntries? f b := by
  obtain ⟨out, ⟨members', hmembers', hperm⟩, rfl⟩ := Json.carries_object.mp hc
  have hnamed := Value.ofMembers?_carried hb.values
    (Value.closedUnderWriting_readCarried.of_entries b hmembers) hmembers'
  rw [readProperties, ofMembers?_eq, Option.map_map]
  cases hreread : Value.rereadEntries? f b with
  | none => rw [Value.ofMembers?_eq_none hperm (hnamed.trans hreread), Option.map_none]
  | some named =>
    have hascending : Value.Ascending named := by
      rw [Value.Ascending, Value.names_rereadEntries? hreread]
      exact hb.ascending
    obtain ⟨named', hout, hperm'⟩ := Value.perm_ofMembers? hperm (hnamed.trans hreread)
    rw [hout, Option.map_some, Function.comp_apply, Value.sortNamed_eq_of_perm hascending hperm',
      List.nil_append, Bag.ofList, Value.sortNamed_of_ascending hascending]

theorem readInstance_carried {i : Instance} (hi : i.properties.Normal) {j j' : Json}
    (hj : instanceToJson? i = some j) (hc : Carries f j j') :
    readInstance ⟨"", "", []⟩ j' = rereadInstance? f i := by
  simp only [instanceToJson?, Option.bind_eq_bind, Option.bind_eq_some_iff, Option.pure_def,
    Option.some_inj] at hj
  obtain ⟨members, hmembers, rfl⟩ := hj
  obtain ⟨out, hout, rfl⟩ := Json.carries_object.mp hc
  have hid : Json.readField out "id" Json.readText "" = some i.id :=
    Json.readField_string "id" i.id hout (by split <;> simp +decide)
  have htemplate : Json.readField out "templateId" Json.readText "" = some i.template :=
    Json.readField_string "templateId" i.template hout (by split <;> simp +decide)
  have hproperties : Json.readField out "properties" readProperties [] =
      Value.rereadEntries? f i.properties := by
    by_cases hempty : members.isEmpty
    · have hnil : i.properties = [] := by
        have hforall := Value.entriesToJson?_eq_some.mp hmembers
        rw [List.isEmpty_iff.mp hempty, List.forall₂_nil_right_iff] at hforall
        exact hforall
      rw [Json.readField_of_none hout (by simp +decide [hempty]), hnil]
      rfl
    · obtain ⟨j', hj', hread⟩ := Json.exists_readField_eq hout (j := .object members)
        (by simp +decide [hempty] : Json.fieldValues _ "properties" = _)
      rw [hread, readProperties_carried hi hmembers hj']
  simp only [readInstance, hid, htemplate, hproperties, rereadInstance?, Option.bind_eq_bind,
    Option.bind_some]
  cases Value.rereadEntries? f i.properties <;> rfl

theorem readConnection_carried (k : Connection) {j : Json} (hc : Carries f (connectionToJson k) j) :
    readConnection ⟨"", ""⟩ j = some k := by
  obtain ⟨out, hout, rfl⟩ := Json.carries_object.mp hc
  have hsource : Json.readField out "from" Json.readText "" = some k.source :=
    Json.readField_string "from" k.source hout (by simp +decide)
  have htarget : Json.readField out "to" Json.readText "" = some k.target :=
    Json.readField_string "to" k.target hout (by simp +decide)
  simp [readConnection, hsource, htarget]

theorem readTimestamp_carried {t : Timestamp} (ht : t.WellFormed) (hportable : t.isPortable)
    {old : Option Timestamp} {j : Json} (hc : Carries f (.string t.text) j) :
    readTimestamp old j = some (some t) := by
  rw [Json.carries_string.mp hc, readTimestamp, Timestamp.parse?_text ht hportable, Option.map_some]

/-- The parts of the written form. -/
theorem toJson?_eq_some {c : Canvas} {j : Json} : c.toJson? = some j ↔
    ∃ instances, List.Forall₂ (fun i k => instanceToJson? i = some k) c.instances instances ∧
      (∀ t ∈ c.timestamp, t.isPortable) ∧
      j = .object ([("instances", .array instances),
          ("connections", .array (c.connections.map connectionToJson))] ++
        Json.wordMember "version" c.version ++
        c.timestamp.toList.map fun t => ("timestamp", Json.string t.text)) := by
  have hall : c.timestamp.all (·.isPortable) = true ↔ ∀ t ∈ c.timestamp, t.isPortable := by
    cases c.timestamp <;> simp
  simp only [toJson?, Option.bind_eq_bind, Option.bind_eq_some_iff, mapM_eq_some_iff]
  constructor
  · rintro ⟨instances, hinstances, h⟩
    split at h
    · simp at h
    · rename_i hportable
      simp only [Bool.not_eq_true', Bool.not_eq_false] at hportable
      exact ⟨instances, hinstances, hall.mp hportable, (Option.some_inj.mp h).symm⟩
  · rintro ⟨instances, hinstances, hportable, rfl⟩
    refine ⟨instances, hinstances, ?_⟩
    rw [hall.mpr hportable]
    rfl

/-- **The written form of a canvas, carried over, is read as `reread?`
says.** -/
theorem readShape?_carried {c : Canvas} (h : c.Normal) {j j' : Json} (hj : c.toJson? = some j)
    (hc : Carries f j j') : readShape? j' = c.reread? f := by
  obtain ⟨instances, hinstances, hportable, rfl⟩ := toJson?_eq_some.mp hj
  obtain ⟨out, hout, rfl⟩ := Json.carries_object.mp hc
  have hread : Json.readField out "instances" (Json.readList ⟨"", "", []⟩ readInstance) [] =
      c.instances.mapM (rereadInstance? f) := by
    obtain ⟨k, hk, hfield⟩ := Json.exists_readField_eq hout (j := .array instances)
      (by simp +decide : Json.fieldValues _ "instances" = _)
    rw [hfield]
    have hitems := (List.forall₂_and_left _ _).mpr ⟨h.properties, hinstances⟩
    exact Json.readList_carried (hitems.imp fun i k hik j => readInstance_carried hik.1 hik.2) hk
  have hconnections : Json.readField out "connections" (Json.readList ⟨"", ""⟩ readConnection) [] =
      some c.connections :=
    Json.readField_of_one hout (j := .array (c.connections.map connectionToJson)) (by simp +decide)
      fun _ => Json.readList_of_forall fun k _ _ => readConnection_carried k
  have hversion : Json.readField out "version" Json.readWord 0 = Json.rereadWord? f c.version :=
    Json.readField_word "version" c.version hout (by simp +decide)
  have htimestamp : Json.readField out "timestamp" readTimestamp none = some c.timestamp := by
    cases ht : c.timestamp with
    | none => exact Json.readField_of_none hout (by simp +decide [ht])
    | some t =>
      exact Json.readField_of_one hout (j := .string t.text) (by simp +decide [ht])
        fun _ => readTimestamp_carried (h.timestamp t ht).1 (hportable t ht)
  have hfilter : c.timestamp.filter (!·.isZero) = c.timestamp := by
    cases ht : c.timestamp with
    | none => rfl
    | some t => simp [(h.timestamp t ht).2]
  simp only [readShape?, hread, hconnections, hversion, htimestamp, reread?, Option.bind_eq_bind,
    Option.bind_some, hfilter]

/-- Ids come back as they are. -/
theorem ids_reread? {c d : Canvas} (h : c.reread? f = some d) :
    d.instances.map (·.id) = c.instances.map (·.id) := by
  simp only [reread?, Option.bind_eq_bind, Option.bind_eq_some_iff, Option.pure_def,
    Option.some_inj] at h
  obtain ⟨instances, hinstances, _, _, rfl⟩ := h
  have hforall := mapM_eq_some_iff.mp hinstances
  clear hinstances
  generalize c.instances = old at hforall
  induction hforall with
  | nil => rfl
  | cons hi _ ih =>
    obtain ⟨_, _, rfl⟩ := Option.map_eq_some_iff.mp hi
    simp [ih]

/-- **When a canvas is read from the written form of one, carried over.** -/
theorem ofJson_carried {c d : Canvas} (h : c.Normal) {j j' : Json} (hj : c.toJson? = some j)
    (hc : Carries f j j') :
    ofJson j' = .ok d ↔ c.reread? f = some d ∧ ∀ i ∈ c.instances, i.id.isEmpty = false := by
  rw [ofJson, readShape?_carried h hj hc]
  cases hd : c.reread? f with
  | none => simp
  | some d' =>
    have hids : d'.instances.find? (·.id.isEmpty) = none ↔
        ∀ i ∈ c.instances, i.id.isEmpty = false := by
      have hmap : (∀ s ∈ d'.instances.map (·.id), s.isEmpty = false) ↔
          ∀ s ∈ c.instances.map (·.id), s.isEmpty = false := by rw [ids_reread? hd]
      simpa [List.forall_mem_map] using hmap
    dsimp only
    rw [← hids, Option.some_inj]
    split
    · rename_i i hfind
      simp [hfind]
    · rename_i hfind
      simp [hfind]

/-- **A canvas that was read comes back as it is exactly if its numbers do.** -/
theorem Loaded.reread?_eq_self_iff {c : Canvas} (h : c.Loaded) : c.reread? f = some c ↔
    (∀ n ∈ c.numbers, Value.rereadNumber? f n = some n) ∧
      Json.rereadWord? f c.version = some c.version := by
  have hinstance : ∀ i ∈ c.instances, (rereadInstance? f i = some i ↔
      ∀ e ∈ i.properties, ∀ n ∈ e.2.numbers, Value.rereadNumber? f n = some n) := by
    intro i hi
    have hself : rereadInstance? f i = some i ↔
        Value.rereadEntries? f i.properties = some i.properties := by
      rw [rereadInstance?, Option.map_eq_some_iff]
      constructor
      · rintro ⟨properties, hproperties, hi⟩
        rw [hproperties, ← hi]
      · exact fun h => ⟨_, h, rfl⟩
    rw [hself, Value.rereadEntries?_eq_self_iff]
    exact forall₂_congr fun e he => (h.described i hi e he).reread?_eq_self_iff
  have hinstances : c.instances.mapM (rereadInstance? f) = some c.instances ↔
      ∀ n ∈ c.numbers, Value.rereadNumber? f n = some n := by
    rw [mapM_eq_some_iff, List.forall₂_same]
    constructor
    · rintro h n ⟨i, hi, e, he, hn⟩
      exact (hinstance i hi).mp (h i hi) e he n hn
    · exact fun h i hi => (hinstance i hi).mpr fun e he n hn => h n ⟨i, hi, e, he, hn⟩
  rw [← hinstances]
  simp only [reread?, Option.bind_eq_bind, Option.bind_eq_some_iff, Option.pure_def,
    Option.some_inj]
  constructor
  · rintro ⟨instances, hinstances, version, hversion, hc⟩
    rw [hinstances, hversion, ← hc]
    exact ⟨rfl, rfl⟩
  · rintro ⟨hinstances, hversion⟩
    exact ⟨_, hinstances, _, hversion, rfl⟩

/-! ### A canvas with a number -/

/-- A document with one instance that has one number. -/
def countJson (t : String) : Json :=
  .object [("instances", .array [.object [("id", .string "a"), ("templateId", .string "limit"),
    ("properties", .object [("count", .number t)])]])]

/-- The canvas of the document. -/
def countCanvas (n : Number) : Canvas where
  instances := [⟨"a", "limit", [("count", .number n)]⟩]

theorem numbers_countCanvas (n : Number) : (countCanvas n).numbers = {n} := by
  ext m
  simp [numbers, countCanvas, Value.numbers]

theorem parse_countJson {t : String} (ht : Json.IsNumber t) {n : Number}
    (hn : Number.parse? t = some n) : parse (countJson t).text = .ok (countCanvas n) := by
  have hread : Json.parse? (countJson t).text = some (countJson t) := by
    rw [countJson, Json.parse?_text, if_pos]
    · simp [Json.depth, Json.membersDepth, Json.itemsDepth, Json.maxDepth]
    · intro m hm
      rw [List.mem_singleton.mp hm]
      refine .array fun j hj => ?_
      rw [List.mem_singleton.mp hj]
      refine .object fun m hm => ?_
      simp only [List.mem_cons, List.not_mem_nil, or_false] at hm
      rcases hm with rfl | rfl | rfl
      · exact .string _
      · exact .string _
      · refine .object fun m hm => ?_
        rw [List.mem_singleton.mp hm]
        exact .number ht
  have hvalue : Value.ofJson? (.number t) = some (.number n) := by
    rw [Value.ofJson?, hn]
    rfl
  have hshape : readShape? (countJson t) = some (countCanvas n) := by
    simp +decide [readShape?, countJson, Json.readField, Json.readList, Json.readItems,
      readInstance, Json.readText, readProperties, Bag.ofMembers?, Bag.ofList, hvalue,
      Value.sortNamed, Value.insertNamed, countCanvas, Json.fieldValues]
  rw [parse, hread]
  simp only [ofJson, hshape]
  rfl

end Canvas

end SolidityCanvas
