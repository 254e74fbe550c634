/-
Canvases come back from their written forms.

* `exists_toJson?_iff`: which canvases have a written form;
* `readable_toJson?`, `depth_toJson?_le`: that form can be read, and for a
  canvas that was read it is not nested too deep;
* `parse_written_iff`: a canvas that was read comes back from its written form
  exactly if its timestamp can be written and its numbers come back.
-/
import SolidityCanvas.Proofs.Canvas.Reading

namespace SolidityCanvas.Canvas

variable {c : Canvas} {j : Json}

/-! ### Written forms -/

/-- A canvas has a written form if its timestamp can be written and its values
are known and finite. -/
theorem exists_toJson?_iff : (∃ j, c.toJson? = some j) ↔
    (∀ t ∈ c.timestamp, t.isPortable) ∧
      (∀ i ∈ c.instances, ∀ e ∈ i.properties, e.2.isWhollyKnown) ∧
      ∀ n ∈ c.numbers, n.isInfinite = false := by
  have hinstance (i : Instance) : (∃ k, instanceToJson? i = some k) ↔
      (∀ e ∈ i.properties, e.2.isWhollyKnown) ∧
        ∀ e ∈ i.properties, ∀ n ∈ e.2.numbers, n.isInfinite = false := by
    have hsome : (∃ k, instanceToJson? i = some k) ↔ (Value.entriesToJson? i.properties).isSome := by
      rw [instanceToJson?]
      cases Value.entriesToJson? i.properties <;> simp
    rw [hsome, Value.isSome_entriesToJson?, Bool.and_eq_true, Value.allEntriesKnown_iff,
      List.all_eq_true]
    refine and_congr_right fun _ => ⟨fun h e he n hn => ?_, fun h n hn => ?_⟩
    · simpa using h n (Value.mem_entriesNumbers.mpr ⟨e, he, hn⟩)
    · obtain ⟨e, he, hn⟩ := Value.mem_entriesNumbers.mp hn
      simpa using h e he n hn
  have hmapM : (∃ js, List.Forall₂ (fun i k => instanceToJson? i = some k) c.instances js) ↔
      ∀ i ∈ c.instances, ∃ k, instanceToJson? i = some k := by
    simp only [← mapM_eq_some_iff, exists_mapM_iff]
  constructor
  · rintro ⟨j, hj⟩
    obtain ⟨instances, hinstances, hportable, -⟩ := toJson?_eq_some.mp hj
    have hall := hmapM.mp ⟨instances, hinstances⟩
    refine ⟨hportable, fun i hi => ((hinstance i).mp (hall i hi)).1, ?_⟩
    rintro n ⟨i, hi, e, he, hn⟩
    exact ((hinstance i).mp (hall i hi)).2 e he n hn
  · rintro ⟨hportable, hknown, hfinite⟩
    obtain ⟨instances, hinstances⟩ := hmapM.mpr fun i hi => (hinstance i).mpr
      ⟨hknown i hi, fun e he n hn => hfinite n ⟨i, hi, e, he, hn⟩⟩
    exact ⟨_, toJson?_eq_some.mpr ⟨instances, hinstances, hportable, rfl⟩⟩

section regular

variable {P : String → Prop}

theorem regular_instanceToJson? {i : Instance} (hi : i.properties.Normal)
    (h : instanceToJson? i = some j)
    (hP : ∀ e ∈ i.properties, ∀ b : Binary, .finite b ∈ e.2.numbers → P b.text) :
    j.Regular P := by
  simp only [instanceToJson?, Option.bind_eq_bind, Option.bind_eq_some_iff, Option.pure_def,
    Option.some_inj] at h
  obtain ⟨members, hmembers, rfl⟩ := h
  have hforall := Value.entriesToJson?_eq_some.mp hmembers
  have hproperties : (Json.object members).Regular P := by
    refine .object ?_ fun m hm => ?_
    · rw [Value.names_of_forall₂ (fun _ _ h => h.1) hforall]
      exact hi.ascending.nodup
    · obtain ⟨e, he, hem⟩ := exists_mem_of_forall₂ hforall m hm
      exact Value.regular_toJson? (hi.values e he) hem.2 (hP e he)
  split
  · exact .object (by simp) (by simp)
  · exact .object (by simp) (by simpa using hproperties)

/-- The written form of a canvas names no member twice, and its numbers are
those of the canvas. -/
theorem regular_toJson? (hc : c.Normal) (h : c.toJson? = some j)
    (hP : ∀ b : Binary, .finite b ∈ c.numbers → P b.text)
    (hversion : c.version ≠ 0 → P (toString c.version.toNat)) : j.Regular P := by
  obtain ⟨instances, hinstances, -, rfl⟩ := toJson?_eq_some.mp h
  refine .object ?_ ?_
  · have hnames : ["instances", "connections", "version", "timestamp"].Nodup := by decide
    refine hnames.sublist ?_
    simp only [List.map_append]
    exact ((List.Sublist.refl _).append (Json.sublist_wordMember _ _)).append
      (Json.sublist_option _ _ _)
  · have hregular : ∀ k ∈ instances, k.Regular P := by
      intro k hk
      obtain ⟨i, hi, hik⟩ := exists_mem_of_forall₂ hinstances k hk
      exact regular_instanceToJson? (hc.properties i hi) hik fun e he b hb =>
        hP b ⟨i, hi, e, he, hb⟩
    have hconnection (k : Connection) : (connectionToJson k).Regular P :=
      .object (by simp) (by simp)
    simp only [List.forall_mem_append, List.forall_mem_cons, Json.forall_mem_wordMember,
      List.forall_mem_map, Json.regular_array, hconnection, Json.regular_string, Json.ofNat,
      Json.regular_number]
    exact ⟨⟨⟨hregular, by simp⟩, hversion⟩, by simp⟩

end regular

/-- What is written of a canvas that was read is not nested too deep. -/
theorem depth_toJson?_le (hc : c.Loaded) (h : c.toJson? = some j) : j.depth ≤ Json.maxDepth := by
  obtain ⟨instances, hinstances, -, rfl⟩ := toJson?_eq_some.mp h
  have hmax : Json.maxDepth = 9996 + 4 := rfl
  have hinstance : ∀ k ∈ instances, k.depth + 2 ≤ Json.maxDepth := by
    intro k hk
    obtain ⟨i, hi, hik⟩ := exists_mem_of_forall₂ hinstances k hk
    simp only [instanceToJson?, Option.bind_eq_bind, Option.bind_eq_some_iff, Option.pure_def,
      Option.some_inj] at hik
    obtain ⟨members, hmembers, rfl⟩ := hik
    have hproperties : (Json.object members).depth + 3 ≤ Json.maxDepth := by
      have hvalues : Json.membersDepth members ≤ 9996 := by
        refine Json.membersDepth_le.mpr fun m hm => ?_
        obtain ⟨e, he, hem⟩ :=
          exists_mem_of_forall₂ (Value.entriesToJson?_eq_some.mp hmembers) m hm
        obtain ⟨j, hj, hdepth⟩ := (hc.properties i hi).described e he
        have hle := Value.depth_toJson?_le hj hem.2
        omega
      rw [Json.depth]
      omega
    split
    · simp [Json.depth, Json.membersDepth, hmax]
    · simp only [Json.depth, Json.membersDepth, List.cons_append, List.nil_append] at hproperties ⊢
      omega
  have hinstances' : (Json.array instances).depth + 1 ≤ Json.maxDepth := by
    have hitems : Json.itemsDepth instances ≤ 9998 :=
      Json.itemsDepth_le.mpr fun k hk => by have := hinstance k hk; omega
    rw [Json.depth]
    omega
  have hconnections : (Json.array (c.connections.map connectionToJson)).depth ≤ 2 := by
    refine Nat.succ_le_succ (Json.itemsDepth_le.mpr fun k hk => ?_)
    obtain ⟨_, _, rfl⟩ := List.mem_map.mp hk
    simp [connectionToJson, Json.depth, Json.membersDepth]
  have hmembers : Json.membersDepth ([("instances", .array instances),
          ("connections", .array (c.connections.map connectionToJson))] ++
        Json.wordMember "version" c.version ++
        c.timestamp.toList.map fun t => ("timestamp", Json.string t.text)) ≤ 9999 := by
    rw [Json.membersDepth_le]
    simp only [List.forall_mem_append, List.forall_mem_cons, Json.forall_mem_wordMember,
      List.forall_mem_map]
    refine ⟨⟨⟨?_, ?_, by simp⟩, ?_⟩, ?_⟩
    · omega
    · omega
    · simp [Json.ofNat, Json.depth]
    · simp [Json.depth]
  rw [Json.depth]
  omega

/-! ### The way back -/

/-- Whole numbers and the numbers of values are written as numbers of a
document. -/
theorem readable_toJson? (hc : c.Normal) (h : c.toJson? = some j) : j.Readable :=
  (regular_toJson? hc h (P := Json.IsNumber) (fun b _ => b.isNumber_text)
    fun _ => toString_nat _ ▸ isNumber_wholeText _ _).readable fun _ => id

/-- What the written form of a canvas is read as. -/
theorem parse_text (hc : c.Loaded) (h : c.toJson? = some j) {d : Canvas} :
    parse j.text = .ok d ↔ c.reread? some = some d := by
  have hread : Json.parse? j.text = some j := by
    have hreadable := readable_toJson? hc.normal h
    have hdepth := depth_toJson?_le hc h
    obtain ⟨_, _, _, rfl⟩ := toJson?_eq_some.mp h
    cases hreadable with
    | object hmembers => rw [Json.parse?_text hmembers, if_pos hdepth]
  rw [parse, hread]
  exact (ofJson_carried hc.normal h (Json.carries_refl j)).trans (and_iff_left hc.ids)

/-- **A canvas that was read comes back from its written form** exactly if its
timestamp can be written, and each of its numbers can be written and is read
back.  All finite numbers are, but for some powers of two and for numbers with
very many places. -/
theorem parse_written_iff {s : String} (h : parse s = .ok c) :
    ((∃ j, c.toJson? = some j ∧ parse j.text = .ok c) ↔
      (∀ t ∈ c.timestamp, t.isPortable) ∧ ∀ n ∈ c.numbers, n.ReadsBack) ∧
    (∀ n ∈ c.numbers, n.isInfinite = false → ¬n.Lopsided → n.places ≤ Number.exactPlaces →
      n.ReadsBack) := by
  have hc := loaded_of_parse h
  refine ⟨?_, fun n hn => Number.readsBack_of_places (hc.isRead n hn)⟩
  have hself : c.reread? some = some c ↔ ∀ n ∈ c.numbers, n.ReadsBack := by
    simp only [hc.reread?_eq_self_iff, Value.rereadNumber?_some_iff, Json.rereadWord?_some,
      and_true]
  constructor
  · rintro ⟨j, hj, hparse⟩
    exact ⟨(exists_toJson?_iff.mp ⟨j, hj⟩).1, hself.mp ((parse_text hc hj).mp hparse)⟩
  · rintro ⟨hportable, hnumbers⟩
    have hknown : ∀ i ∈ c.instances, ∀ e ∈ i.properties, e.2.isWhollyKnown :=
      fun i hi e he => (hc.described i hi e he).isWhollyKnown
    obtain ⟨j, hj⟩ := exists_toJson?_iff.mpr
      ⟨hportable, hknown, fun n hn => (hnumbers n hn).isInfinite⟩
    exact ⟨j, hj, (parse_text hc hj).mpr (hself.mpr hnumbers)⟩

/-- The canvas with the number one half comes back. -/
theorem parse_written_half : ∃ j, (countCanvas (.finite ⟨false, 1, -1, 512⟩)).toJson? = some j ∧
    parse j.text = .ok (countCanvas (.finite ⟨false, 1, -1, 512⟩)) := by
  have hparse := parse_countJson (t := "0.5") (n := .finite ⟨false, 1, -1, 512⟩)
    ⟨_, _, _, _, rfl, rfl, rfl, rfl⟩ (by decide +kernel)
  obtain ⟨hiff, hnumbers⟩ := parse_written_iff hparse
  refine hiff.mpr ⟨by simp [countCanvas], fun n hn => hnumbers n hn ?_ ?_ ?_⟩
  all_goals
    rw [numbers_countCanvas, Set.mem_singleton_iff] at hn
    subst hn
  · rfl
  · decide +kernel
  · decide +kernel

/-- An empty canvas of a time a whole day ahead of Greenwich. -/
def aheadText : String :=
  "\x7b\"instances\": [], \"timestamp\": \"2024-01-01T00:00:00+24:00\"\x7d"

/-- What is read of it. -/
def aheadCanvas : Canvas where
  timestamp := some {
    date := ⟨2024, 1, 1⟩, hour := 0, minute := 0, second := 0, nanosecond := 0, offset := 1440 }

theorem parse_aheadText : parse aheadText = .ok aheadCanvas := rfl

/-- **The canvas with the number `2 ^ 513` does not come back**, but the one
with the number before it; and a canvas of a time a whole day ahead of Greenwich
has no written form. -/
theorem parse_written_power :
    (parse (countJson Number.powerText).text = .ok (countCanvas (.finite Number.power)) ∧
    ∃ j, (countCanvas (.finite Number.power)).toJson? = some j ∧
      parse j.text = .ok (countCanvas (.finite Number.neighbour)) ∧
      countCanvas (.finite Number.neighbour) ≠ countCanvas (.finite Number.power)) ∧
    parse aheadText = .ok aheadCanvas ∧ aheadCanvas.toJson? = none := by
  refine ⟨?_, parse_aheadText, by decide⟩
  have hparse := parse_countJson Number.isNumber_powerText Number.parse?_powerText
  obtain ⟨j, hj⟩ := exists_toJson?_iff (c := countCanvas (.finite Number.power)).mpr (by
    simp [countCanvas, numbers, Value.numbers, Value.isWhollyKnown, Number.isInfinite])
  refine ⟨hparse, j, hj, (parse_text (loaded_of_parse hparse) hj).mpr ?_, fun h => ?_⟩
  · simp [reread?, countCanvas, rereadInstance?, Value.rereadEntries?, Value.reread?,
      Value.rereadNumber?, Number.text_power, Number.parse?_neighbourText, Json.rereadWord?]
  · simp only [countCanvas, Canvas.mk.injEq, List.cons.injEq, Instance.mk.injEq, Prod.mk.injEq,
      Value.number.injEq, Number.finite.injEq, true_and, and_true] at h
    exact Number.power_ne_neighbour h.symm

end SolidityCanvas.Canvas
