/-
Canvases that their content texts tell apart.

The content text of a canvas that is read from a document says which instances
and connections it holds, unless two different numbers in it are written alike
(`contentText_inj`).  Only powers of two of very many digits are written like
other numbers (`distinguished_of_legible`).
-/
import SolidityCanvas.Proofs.Canvas.Reading
import SolidityCanvas.Proofs.Number.Display

namespace SolidityCanvas

/-! ### Numbers that are told apart -/

namespace Number

/-- Different numbers of the set have different texts, and different calls if
these are needed, which is if an infinity is among them. -/
structure Distinguished (N : Set Number) : Prop where
  texts : ∀ m ∈ N, ∀ n ∈ N, m.text = n.text → m = n
  calls : (∃ n ∈ N, n.isInfinite) → ∀ m ∈ N, ∀ n ∈ N, m.display = n.display → m = n

/-- The set has no powers of two whose texts, or calls if these are needed,
need not be exact. -/
structure Legible (N : Set Number) : Prop where
  texts : ∀ n ∈ N, ¬n.Lopsided
  calls : (∃ n ∈ N, n.isInfinite) → ∀ n ∈ N, ¬n.LopsidedDouble

variable {N : Set Number}

/-- **Numbers that are read are told apart**, but for some powers of two. -/
theorem distinguished_of_legible (hread : ∀ n ∈ N, n.IsRead) (h : Legible N) :
    Distinguished N where
  texts m hm n hn := text_inj (hread m hm) (hread n hn) (h.texts m hm) (h.texts n hn)
  calls hinfinite m hm n hn := display_inj (hread m hm) (hread n hn) (h.texts m hm) (h.texts n hn)
    (h.calls hinfinite m hm) (h.calls hinfinite n hn)

theorem Distinguished.distinct (h : Distinguished N) (hinfinite : ∃ n ∈ N, n.isInfinite) :
    Distinct N := by
  rintro m hm n hn (htext | hcall)
  · exact h.texts m hm n hn htext
  · exact h.calls hinfinite m hm n hn hcall

end Number

/-! ### Values that are told apart -/

namespace Value

variable {N : Set Number} {form : Option ValueType} {v w : Value}

/-- A plain value without a written form holds an infinity. -/
theorem Plain.exists_isInfinite (hv : Plain N form v) (h : v.toJson? = none) :
    ∃ n ∈ N, n.isInfinite := by
  have hsome := isSome_toJson? v
  rw [h, hv.isWhollyKnown, Bool.true_and] at hsome
  obtain ⟨n, hn, hinfinite⟩ := List.all_eq_false.mp hsome.symm
  exact ⟨n, hv.mem_of_mem_numbers n hn, by simpa using hinfinite⟩

/-- **Plain values are told apart** as far as their numbers are. -/
theorem Plain.told (hN : Number.Distinguished N) (hv : Plain N form v) (hw : Plain N form w) :
    Text.Told Number.IsNumeral canonicalChars v w :=
  hv.told_canonicalChars_of hN.texts
    (fun h _ => hv.told_callChars (hN.distinct (hv.exists_isInfinite h)) hw) hw

theorem Described.told (hN : Number.Distinguished N) (hv : v.Described) (hw : w.Described)
    (hvN : ∀ n ∈ v.numbers, n ∈ N) (hwN : ∀ n ∈ w.numbers, n ∈ N) :
    Text.Told Number.IsNumeral canonicalChars v w :=
  (hv.mono hvN).told hN (hw.mono hwN)

/-- Two numbers that are told apart by neither their texts nor their keys. -/
theorem canonical_power :
    canonical (.number (.finite Number.power)) = canonical (.number (.finite Number.neighbour)) := by
  rw [canonical, canonical, toJson?, toJson?, Number.text_power, Number.text_neighbour]

end Value

/-! ### Canvases that are told apart -/

namespace Canvas

variable {c d : Canvas}

/-- **The content text says what a canvas holds.**  Canvases that are read from
documents have the same bytes as their content if they hold the same instances
and connections, whatever their versions and timestamps are; and only then, if
no two numbers in them are written alike.  No two are, but for powers of two
with a text that need not be exact. -/
theorem contentText_inj {s t : String} (hc : parse s = .ok c) (hd : parse t = .ok d) :
    (c.instances = d.instances ∧ c.connections = d.connections →
      c.contentText.toUTF8 = d.contentText.toUTF8) ∧
    (Number.Distinguished (c.numbers ∪ d.numbers) →
      c.contentText.toUTF8 = d.contentText.toUTF8 →
        c.instances = d.instances ∧ c.connections = d.connections) ∧
    (Number.Legible (c.numbers ∪ d.numbers) → Number.Distinguished (c.numbers ∪ d.numbers)) := by
  have hread : ∀ n ∈ c.numbers ∪ d.numbers, n.IsRead := by
    rintro n (hn | hn)
    · exact (loaded_of_parse hc).isRead n hn
    · exact (loaded_of_parse hd).isRead n hn
  refine ⟨fun h => ?_, fun hN h => ?_, Number.distinguished_of_legible hread⟩
  · rw [contentText_congr h.1 h.2]
  · refine eq_of_told (fun i hi e he i' hi' e' he' => ?_) (String.toByteArray_inj.mp h)
    exact (described_of_parse hc i hi e he).told hN (described_of_parse hd i' hi' e' he')
      (fun n hn => .inl ⟨i, hi, e, he, hn⟩) fun n hn => .inr ⟨i', hi', e', he', hn⟩

/-- The numbers five and one half are told apart. -/
theorem contentText_five_ne_half :
    (countCanvas (.finite ⟨false, 5, 0, 512⟩)).contentText.toUTF8 ≠
      (countCanvas (.finite ⟨false, 1, -1, 512⟩)).contentText.toUTF8 := by
  have hfive := parse_countJson (t := "5") (n := .finite ⟨false, 5, 0, 512⟩)
    ⟨_, _, _, _, rfl, rfl, rfl, rfl⟩ (by decide)
  have hhalf := parse_countJson (t := "0.5") (n := .finite ⟨false, 1, -1, 512⟩)
    ⟨_, _, _, _, rfl, rfl, rfl, rfl⟩ (by decide +kernel)
  obtain ⟨-, hinj, hlegible⟩ := contentText_inj hfive hhalf
  rw [numbers_countCanvas, numbers_countCanvas] at hinj hlegible
  intro h
  have hinstances := (hinj (hlegible ⟨?_, ?_⟩) h).1
  · simp [countCanvas] at hinstances
  · rintro n (rfl | rfl)
    · decide
    · decide +kernel
  · rintro ⟨n, rfl | rfl, hinfinite⟩
    · cases hinfinite
    · cases hinfinite

/-- **Different canvases can have one content text**: those with the numbers
`2 ^ 513` and `2 ^ 513 - 2`. -/
theorem contentText_power_eq_neighbour :
    parse (countJson Number.powerText).text = .ok (countCanvas (.finite Number.power)) ∧
    parse (countJson Number.neighbourText).text = .ok (countCanvas (.finite Number.neighbour)) ∧
    (countCanvas (.finite Number.power)).contentText.toUTF8 =
      (countCanvas (.finite Number.neighbour)).contentText.toUTF8 ∧
    (countCanvas (.finite Number.power)).instances ≠
      (countCanvas (.finite Number.neighbour)).instances := by
  refine ⟨parse_countJson Number.isNumber_powerText Number.parse?_powerText,
    parse_countJson (Number.text_neighbour ▸ Number.neighbour.isNumber_text)
      Number.parse?_neighbourText, ?_, fun h => ?_⟩
  · delta contentText
    simp only [countCanvas, instanceText, Bag.canonical, List.map_cons, List.map_nil,
      Value.canonical_power, List.length_cons]
  · simp only [countCanvas, List.cons.injEq, Instance.mk.injEq, Prod.mk.injEq, Value.number.injEq,
      Number.finite.injEq, true_and, and_true] at h
    exact Number.power_ne_neighbour h

end Canvas

end SolidityCanvas
