/-
Messages that travel as plain data.

On an open connection numbers are doubles.  A request with a canvas that was
read from a document, or a response, arrives as it was sent exactly if each
number in it is the same after it was a double (`Travels`) and it is not nested
too deep.

* `encode?_request_iff`, `encode?_response_iff`: this, for both;
* `travels_of_lt`: whole numbers below `2 ^ 53` are the same.
-/
import SolidityCanvas.Proofs.Canvas.RoundTrip
import SolidityCanvas.Proofs.Contract.Reading
import SolidityCanvas.Proofs.Number.Doubles

namespace SolidityCanvas

open Json (Carries plainNumber?)

variable {f : String → Option String}

/-! ### Documents that are passed on -/

namespace Json

variable {j p : Json}

/-- A regular object is passed on as plain data unless it is nested too
deep. -/
theorem passed?_eq_some {members : List (String × Json)} (h : (object members).Regular IsNumber) :
    (object members).passed? = some p ↔
      (object members).depth ≤ maxDepth ∧ (object members).plain? = some p := by
  have hmembers : ∀ m ∈ members, m.2.Readable := by
    cases h.readable fun _ => id with
    | object hmembers => exact hmembers
  rw [passed?, parse?_text hmembers]
  split
  · simp [*]
  · simp [*]

end Json

/-! ### Requests -/

namespace CompileRequest

variable {r q : CompileRequest} {c : Canvas} {j j' : Json}

/-- What a request is read as, after its numbers were written anew. -/
def reread? (f : String → Option String) (r : CompileRequest) : Option CompileRequest := do
  let canvas ← r.canvas.elim (some none) fun c => (c.reread? f).map some
  let version ← Json.rereadWord? f r.version
  return { r with canvas, version }

/-- The members of a written request with a canvas. -/
def members (r : CompileRequest) (canvas : Json) : List (String × Json) :=
  Json.textMember "session" r.session ++ Json.wordMember "version" r.version ++
    [("canvas", canvas), ("header", r.header.toJson)]

theorem toJson?_eq_some (hr : r.canvas = some c) :
    r.toJson? = some j ↔ ∃ k, c.toJson? = some k ∧ j = .object (r.members k) := by
  have hbind : r.toJson? = c.toJson?.map fun k => .object (r.members k) := by
    simp only [toJson?, hr]
    cases c.toJson? <;> rfl
  rw [hbind, Option.map_eq_some_iff]
  exact exists_congr fun k => and_congr_right fun _ => eq_comm

/-- **When a request is read from the written form of one, carried over.** -/
theorem ofJson_carried (hr : r.canvas = some c) (hc : c.Normal) (hj : r.toJson? = some j)
    (hcarries : Carries f j j') :
    ofJson j' = .ok q ↔ r.reread? f = some q ∧ ∀ i ∈ c.instances, i.id.isEmpty = false := by
  obtain ⟨k, hk, rfl⟩ := (toJson?_eq_some hr).mp hj
  obtain ⟨out, hout, rfl⟩ := Json.carries_object.mp hcarries
  obtain ⟨k', hk', hvalues⟩ := Json.exists_fieldValues_eq hout (j := k)
    (by simp +decide [members] : Json.fieldValues _ "canvas" = _)
  have hcanvas : canvasOf out = (Canvas.ofJson k').map some := by
    obtain ⟨_, -, -, rfl⟩ := Canvas.toJson?_eq_some.mp hk
    obtain ⟨_, -, rfl⟩ := Json.carries_object.mp hk'
    simp only [canvasOf, hvalues, List.foldlM_cons, List.foldlM_nil]
    cases Canvas.ofJson _ <;> rfl
  have hsession : Json.readField out "session" Json.readText "" = some r.session :=
    Json.readField_text "session" r.session hout (by simp +decide [members])
  have hversion : Json.readField out "version" Json.readWord 0 = Json.rereadWord? f r.version :=
    Json.readField_word "version" r.version hout (by simp +decide [members])
  have hheader : Json.readField out "header" Header.read {} = some r.header :=
    Json.readField_of_one hout (j := r.header.toJson) (by simp +decide [members])
      fun _ => r.header.read_carried
  have hok : ofJson (.object out) = .ok q ↔ ∃ d, Canvas.ofJson k' = .ok d ∧
      ∃ w, Json.rereadWord? f r.version = some w ∧ { r with canvas := some d, version := w } = q := by
    simp only [ofJson, hcanvas, hsession, hversion, hheader]
    cases Canvas.ofJson k' with
    | error e =>
      change Except.error e = Except.ok q ↔ _
      simp
    | ok d =>
      cases Json.rereadWord? f r.version with
      | none =>
        change Except.error CanvasFault.shape = Except.ok q ↔ _
        simp
      | some w =>
        change Except.ok { r with canvas := some d, version := w } = Except.ok q ↔ _
        simp
  have hreread : r.reread? f = some q ↔ ∃ d, c.reread? f = some d ∧
      ∃ w, Json.rereadWord? f r.version = some w ∧ { r with canvas := some d, version := w } = q := by
    simp [reread?, hr, Option.bind_eq_some_iff]
  simp only [hok, hreread, Canvas.ofJson_carried hc hk hk', and_assoc]
  constructor
  · rintro ⟨d, hd, hids, h⟩
    exact ⟨⟨d, hd, h⟩, hids⟩
  · rintro ⟨⟨d, hd, h⟩, hids⟩
    exact ⟨d, hd, hids, h⟩

/-- The written form of a request names no member twice, and its numbers are
those of the canvas and the versions. -/
theorem regular_toJson? {P : String → Prop} (hr : r.canvas = some c) (hc : c.Normal)
    (hj : r.toJson? = some j) (hP : ∀ b : Binary, .finite b ∈ c.numbers → P b.text)
    (hcanvas : c.version ≠ 0 → P (toString c.version.toNat))
    (hversion : r.version ≠ 0 → P (toString r.version.toNat)) : j.Regular P := by
  obtain ⟨k, hk, rfl⟩ := (toJson?_eq_some hr).mp hj
  refine .object ?_ ?_
  · have hnames : ["session", "version", "canvas", "header"].Nodup := by decide
    refine hnames.sublist ?_
    simp only [members, List.map_append]
    exact ((Json.sublist_textMember _ _).append (Json.sublist_wordMember _ _)).append
      (List.Sublist.refl _)
  · simp only [members, List.forall_mem_append, List.forall_mem_cons, Json.forall_mem_textMember,
      Json.forall_mem_wordMember, Json.regular_string, implies_true, true_and, Json.ofNat,
      Json.regular_number, List.not_mem_nil, false_implies, and_true]
    exact ⟨hversion, Canvas.regular_toJson? hc hk hP hcanvas, r.header.regular_toJson⟩

end CompileRequest

/-! ### Responses -/

namespace CompileResponse

variable {r q : CompileResponse} {j : Json}

/-- The result is well-formed. -/
def WellFormed (r : CompileResponse) : Prop := ∀ x ∈ r.result, x.WellFormed

/-- What a response is read as, after its numbers were written anew. -/
def reread? (f : String → Option String) (r : CompileResponse) : Option CompileResponse := do
  let version ← Json.rereadWord? f r.version
  let result ← r.result.elim (some none) fun x => (x.reread? f).map some
  return { r with version, result }

/-- The members of a written response. -/
def members (r : CompileResponse) : List (String × Json) :=
  Json.textMember "session" r.session ++ Json.wordMember "version" r.version ++
    Json.flagMember "superseded" r.superseded ++
    r.result.toList.map fun x => ("result", x.toJson)

theorem toJson_eq (r : CompileResponse) : r.toJson = .object r.members := rfl

/-- **What the written form of a response, carried over, is read as.** -/
theorem ofJson?_carried (hr : r.WellFormed) (hdepth : r.toJson.depth ≤ Json.maxDepth)
    (hcarries : Carries f r.toJson j) : ofJson? j = r.reread? f := by
  rw [toJson_eq] at hdepth hcarries
  obtain ⟨out, hout, rfl⟩ := Json.carries_object.mp hcarries
  have hresult : Json.readField out "result" (Json.readOption {} CompileResult.read) none =
      r.result.elim (some none) fun x => (x.reread? f).map some := by
    have hvalues : Json.fieldValues r.members "result" = r.result.toList.map CompileResult.toJson := by
      simp +decide [members]
    refine Json.readField_option "result" CompileResult.toJson hout hvalues (fun x => ⟨_, x.toJson_eq⟩)
      fun x hx j => CompileResult.read_carried (hr x hx) ?_
    rw [Option.mem_def.mp hx] at hvalues
    have hlt := Json.depth_lt_of_field "result" hvalues
    omega
  simp only [ofJson?, hresult,
    Json.readField_text "session" r.session hout (by simp +decide [members]),
    Json.readField_word "version" r.version hout (by simp +decide [members]),
    Json.readField_flag "superseded" r.superseded hout (by simp +decide [members]),
    Option.bind_eq_bind, Option.bind_some, reread?]

theorem regular_toJson {P : String → Prop} (hr : r.WellFormed)
    (hversion : r.version ≠ 0 → P (toString r.version.toNat))
    (hcost : ∀ x ∈ r.result, ∀ d ∈ x.document, P (toString d.estimatedCost.toInt)) :
    r.toJson.Regular P := by
  rw [toJson_eq, members]
  refine .object ?_ ?_
  · have hnames : ["session", "version", "superseded", "result"].Nodup := by decide
    refine hnames.sublist ?_
    simp only [List.map_append]
    exact (((Json.sublist_textMember _ _).append (Json.sublist_wordMember _ _)).append
      (Json.sublist_flagMember _ _)).append (Json.sublist_option _ _ _)
  · simp only [List.forall_mem_append, Json.forall_mem_textMember, Json.forall_mem_wordMember,
      Json.forall_mem_flagMember, Json.regular_string, Json.regular_bool, implies_true, true_and,
      and_true, Json.ofNat, Json.regular_number, List.forall_mem_map, Option.mem_toList]
    exact ⟨hversion, fun x hx => x.regular_toJson (hr x hx) (hcost x hx)⟩

end CompileResponse

/-! ### Numbers that travel -/

/-- The word is the same after it was a double. -/
def WordTravels (w : UInt64) : Prop := Json.rereadWord? plainNumber? w = some w

instance : DecidablePred WordTravels := fun _ => inferInstanceAs (Decidable (_ = _))

/-- The signed word is the same after it was a double. -/
def IntTravels (n : Int64) : Prop := rereadInt? plainNumber? n = some n

instance : DecidablePred IntTravels := fun _ => inferInstanceAs (Decidable (_ = _))

/-- The number is the same after it was a double. -/
def Number.Travels (n : Number) : Prop := Value.rereadNumber? plainNumber? n = some n

instance : DecidablePred Number.Travels := fun _ => inferInstanceAs (Decidable (_ = _))

theorem plainNumber?_wholeText {n : Nat} (h : n < 2 ^ Double.bits) (negative : Bool) :
    plainNumber? (wholeText negative n) = some (wholeText negative n) := by
  rw [plainNumber?, Double.parse?_wholeText h, Option.map_some, Double.text_whole h]

theorem wordTravels_of_lt {w : UInt64} (h : w.toNat < 2 ^ Double.bits) : WordTravels w := by
  have hsome := Json.rereadWord?_some w
  rw [Json.rereadWord?, toString_nat] at hsome
  rw [WordTravels, Json.rereadWord?, toString_nat, plainNumber?_wholeText h, hsome]

theorem intTravels_of_lt {n : Int64} (h : n.toInt.natAbs < 2 ^ Double.bits) : IntTravels n := by
  have hsome := rereadInt?_some n
  rw [rereadInt?, toString_int] at hsome
  rw [IntTravels, rereadInt?, toString_int, plainNumber?_wholeText h, hsome]

theorem Number.travels_of_lt {n : Nat} (h : n < 2 ^ Double.bits) (negative : Bool) :
    (Number.finite (Binary.normal negative n 0 readPrecision)).Travels := by
  have hbits : bitLength n ≤ readPrecision :=
    (bitLength_le h).trans (by decide)
  rw [Travels, Value.rereadNumber?, Binary.text_normal hbits, plainNumber?_wholeText h,
    Option.bind_some, parse?_wholeText hbits]

theorem WordTravels.plainNumber? {w : UInt64} (h : WordTravels w) (hw : w ≠ 0) :
    ∃ t, Json.plainNumber? (toString w.toNat) = some t := by
  rw [WordTravels, Json.rereadWord?, if_neg hw, Option.bind_eq_some_iff] at h
  obtain ⟨t, ht, -⟩ := h
  exact ⟨t, ht⟩

theorem IntTravels.plainNumber? {n : Int64} (h : IntTravels n) :
    ∃ t, Json.plainNumber? (toString n.toInt) = some t := by
  rw [IntTravels, rereadInt?, Option.bind_eq_some_iff] at h
  obtain ⟨t, ht, -⟩ := h
  exact ⟨t, ht⟩

theorem Number.Travels.plainNumber? {b : Binary} (h : (Number.finite b).Travels) :
    ∃ t, Json.plainNumber? b.text = some t := by
  rw [Number.Travels, Value.rereadNumber?, Option.bind_eq_some_iff] at h
  obtain ⟨t, ht, -⟩ := h
  exact ⟨t, ht⟩

theorem Number.Travels.isInfinite {n : Number} (h : n.Travels) : n.isInfinite = false := by
  cases n with
  | finite b => rfl
  | infinite negative => simp [Number.Travels, Value.rereadNumber?] at h

/-! ### Messages that travel -/

/-- The version and the numbers of the canvas are the same after they were
doubles, and the timestamp can be written. -/
structure Canvas.Travels (c : Canvas) : Prop where
  version : WordTravels c.version
  numbers : ∀ n ∈ c.numbers, n.Travels
  timestamp : ∀ t ∈ c.timestamp, t.isPortable

/-- The versions and the numbers are the same after they were doubles, and the
request is not nested too deep. -/
structure CompileRequest.Travels (r : CompileRequest) : Prop where
  version : WordTravels r.version
  canvas : ∀ c ∈ r.canvas, c.Travels
  depth : ∀ j ∈ r.toJson?, j.depth ≤ Json.maxDepth

/-- The version and the cost are the same after they were doubles, and the
response is not nested too deep. -/
structure CompileResponse.Travels (r : CompileResponse) : Prop where
  version : WordTravels r.version
  cost : ∀ x ∈ r.result, ∀ d ∈ x.document, IntTravels d.estimatedCost
  depth : r.toJson.depth ≤ Json.maxDepth

namespace CompileRequest

variable {r q : CompileRequest} {c : Canvas} {j p : Json}

/-- A request is read as itself exactly if its canvas and its version are. -/
theorem reread?_eq_self_iff (hr : r.canvas = some c) :
    r.reread? f = some r ↔ c.reread? f = some c ∧ Json.rereadWord? f r.version = some r.version := by
  obtain ⟨session, version, canvas, header⟩ := r
  subst hr
  simp [reread?, Option.bind_eq_some_iff]

theorem regular_isNumber (hr : r.canvas = some c) (hc : c.Normal) (hj : r.toJson? = some j) :
    j.Regular Json.IsNumber :=
  regular_toJson? hr hc hj (fun b _ => b.isNumber_text)
    (fun _ => toString_nat _ ▸ isNumber_wholeText _ _)
    (fun _ => toString_nat _ ▸ isNumber_wholeText _ _)

theorem encode?_eq_some (hr : r.canvas = some c) (hc : c.Normal) (hj : r.toJson? = some j) :
    r.encode? = some p ↔ j.depth ≤ Json.maxDepth ∧ j.plain? = some p := by
  have hregular := regular_isNumber hr hc hj
  rw [encode?, hj, Option.bind_some]
  obtain ⟨k, -, rfl⟩ := (toJson?_eq_some hr).mp hj
  exact Json.passed?_eq_some hregular

/-- What a request with a canvas that was read is read as, once it was sent. -/
theorem ofJson_encoded (hr : r.canvas = some c) (hc : c.Loaded) (hp : r.encode? = some p) :
    ofJson p = .ok q ↔ r.reread? plainNumber? = some q := by
  obtain ⟨j, hj, -⟩ := Option.bind_eq_some_iff.mp hp
  have hplain := ((encode?_eq_some hr hc.normal hj).mp hp).2
  have hcarries := Json.carries_of_plain? (regular_isNumber hr hc.normal hj) hplain
  exact (ofJson_carried hr hc.normal hj hcarries).trans (and_iff_left hc.ids)

/-- A request that travels can be sent. -/
theorem Travels.exists_encode? (h : r.Travels) (hr : r.canvas = some c) (hc : c.Loaded) :
    ∃ p, r.encode? = some p := by
  have hcanvas := h.canvas c hr
  obtain ⟨k, hk⟩ := Canvas.exists_toJson?_iff.mpr ⟨hcanvas.timestamp,
    fun i hi e he => (hc.described i hi e he).isWhollyKnown,
    fun n hn => (hcanvas.numbers n hn).isInfinite⟩
  have hj := (toJson?_eq_some hr).mpr ⟨k, hk, rfl⟩
  obtain ⟨p, hp⟩ := Json.exists_plain? (fun _ => id)
    (regular_toJson? hr hc.normal hj (fun b hb => (hcanvas.numbers _ hb).plainNumber?)
      hcanvas.version.plainNumber? h.version.plainNumber?)
  exact ⟨p, (encode?_eq_some hr hc.normal hj).mpr ⟨h.depth _ hj, hp⟩⟩

/-- **When a request comes back from plain data.** -/
theorem comes_back_iff (hr : r.canvas = some c) (hc : c.Loaded) :
    (∃ p, r.encode? = some p ∧ ofJson p = .ok r) ↔ r.Travels := by
  have hself : r.reread? plainNumber? = some r ↔ WordTravels r.version ∧ WordTravels c.version ∧
      ∀ n ∈ c.numbers, n.Travels := by
    rw [reread?_eq_self_iff hr, hc.reread?_eq_self_iff, and_comm,
      and_comm (b := Json.rereadWord? plainNumber? c.version = _)]
    rfl
  constructor
  · rintro ⟨p, hp, hok⟩
    obtain ⟨hversion, hcanvas, hnumbers⟩ := hself.mp ((ofJson_encoded hr hc hp).mp hok)
    obtain ⟨j, hj, -⟩ := Option.bind_eq_some_iff.mp hp
    obtain ⟨k, hk, -⟩ := (toJson?_eq_some hr).mp hj
    refine ⟨hversion, fun d hd => ?_, fun j' hj' => ?_⟩
    · obtain rfl : c = d := Option.some_inj.mp (hr.symm.trans hd)
      exact ⟨hcanvas, hnumbers, (Canvas.exists_toJson?_iff.mp ⟨k, hk⟩).1⟩
    · exact ((encode?_eq_some hr hc.normal hj').mp hp).1
  · intro h
    have hcanvas := h.canvas c hr
    obtain ⟨p, hp⟩ := h.exists_encode? hr hc
    exact ⟨p, hp, (ofJson_encoded hr hc hp).mpr
      (hself.mpr ⟨h.version, hcanvas.version, hcanvas.numbers⟩)⟩

end CompileRequest

namespace CompileResponse

variable {r q : CompileResponse} {p : Json}

/-- A response is read as itself exactly if its version and its cost are. -/
theorem reread?_eq_self_iff : r.reread? f = some r ↔
    Json.rereadWord? f r.version = some r.version ∧
      ∀ x ∈ r.result, ∀ d ∈ x.document, rereadInt? f d.estimatedCost = some d.estimatedCost := by
  obtain ⟨session, version, superseded, result⟩ := r
  simp only [← CompileResult.reread?_eq_self_iff]
  cases result <;> simp [reread?, Option.bind_eq_some_iff]

theorem regular_isNumber (hr : r.WellFormed) : r.toJson.Regular Json.IsNumber :=
  regular_toJson hr (fun _ => toString_nat _ ▸ isNumber_wholeText _ _)
    fun _ _ _ _ => toString_int _ ▸ isNumber_wholeText _ _

theorem encode?_eq_some (hr : r.WellFormed) :
    r.encode? = some p ↔ r.toJson.depth ≤ Json.maxDepth ∧ r.toJson.plain? = some p :=
  Json.passed?_eq_some (regular_isNumber hr)

/-- What a response is read as, once it was sent. -/
theorem ofJson?_encoded (hr : r.WellFormed) (hp : r.encode? = some p) :
    ofJson? p = r.reread? plainNumber? := by
  obtain ⟨hdepth, hplain⟩ := (encode?_eq_some hr).mp hp
  exact ofJson?_carried hr hdepth (Json.carries_of_plain? (regular_isNumber hr) hplain)

/-- **When a response comes back from plain data.** -/
theorem comes_back_iff (hr : r.WellFormed) :
    (∃ p, r.encode? = some p ∧ ofJson? p = some r) ↔ r.Travels := by
  have hself : r.reread? plainNumber? = some r ↔ WordTravels r.version ∧
      ∀ x ∈ r.result, ∀ d ∈ x.document, IntTravels d.estimatedCost := reread?_eq_self_iff
  constructor
  · rintro ⟨p, hp, hok⟩
    rw [ofJson?_encoded hr hp, hself] at hok
    exact ⟨hok.1, hok.2, ((encode?_eq_some hr).mp hp).1⟩
  · intro h
    obtain ⟨p, hplain⟩ := Json.exists_plain? (fun _ => id)
      (regular_toJson hr h.version.plainNumber? fun x hx d hd => (h.cost x hx d hd).plainNumber?)
    have hp := (encode?_eq_some hr).mpr ⟨h.depth, hplain⟩
    exact ⟨p, hp, (ofJson?_encoded hr hp).trans (hself.mpr ⟨h.version, h.cost⟩)⟩

end CompileResponse

/-! ### A request and a response -/

/-- A request for a canvas with the number five. -/
def sampleRequest (version : UInt64) : CompileRequest where
  session := "s"
  version
  canvas := some (Canvas.countCanvas (.finite ⟨false, 5, 0, 512⟩))
  header := { contractName := "Token" }

/-- A response with a document. -/
def sampleResponse (version : UInt64) : CompileResponse where
  session := "s"
  version
  result := some { document := some ⟨"contract Token {}", [], [], 21000, List.replicate 32 0⟩ }

theorem parse_five : Canvas.parse (Canvas.countJson "5").text =
    .ok (Canvas.countCanvas (.finite ⟨false, 5, 0, 512⟩)) :=
  Canvas.parse_countJson ⟨_, _, _, _, rfl, rfl, rfl, rfl⟩ (by decide)

theorem travels_five : ∀ n ∈ (Canvas.countCanvas (.finite ⟨false, 5, 0, 512⟩)).numbers,
    n.Travels := by
  rw [Canvas.numbers_countCanvas]
  rintro _ rfl
  decide +kernel

theorem wellFormed_sampleResponse (version : UInt64) : (sampleResponse version).WellFormed := by
  rintro x hx
  cases hx
  exact ⟨by simp, by simp⟩

/-! ### Main result -/

/-- **Messages come back from plain data** exactly if their numbers are the
same after they were doubles, timestamps can be written and they are not nested
too deep.  Whole numbers below `2 ^ 53` are the same. -/
theorem messages_come_back_iff {s : String} {c : Canvas} {r : CompileRequest} {q : CompileResponse}
    (hc : Canvas.parse s = .ok c) (hr : r.canvas = some c) (hq : q.WellFormed) :
    ((∃ p, r.encode? = some p ∧ CompileRequest.ofJson p = .ok r) ↔ r.Travels) ∧
    ((∃ p, q.encode? = some p ∧ CompileResponse.ofJson? p = some q) ↔ q.Travels) ∧
    (∀ w : UInt64, w.toNat < 2 ^ Double.bits → WordTravels w) ∧
    (∀ n : Int64, n.toInt.natAbs < 2 ^ Double.bits → IntTravels n) ∧
    ∀ n : Nat, n < 2 ^ Double.bits → ∀ negative,
      (Number.finite (Binary.normal negative n 0 Number.readPrecision)).Travels :=
  ⟨CompileRequest.comes_back_iff hr (Canvas.loaded_of_parse hc), CompileResponse.comes_back_iff hq,
    fun _ => wordTravels_of_lt, fun _ => intTravels_of_lt, fun _ => Number.travels_of_lt⟩

/-- A request and a response for version seven come back. -/
theorem messages_come_back_seven :
    (∃ p, (sampleRequest 7).encode? = some p ∧ CompileRequest.ofJson p = .ok (sampleRequest 7)) ∧
    ∃ p, (sampleResponse 7).encode? = some p ∧
      CompileResponse.ofJson? p = some (sampleResponse 7) := by
  obtain ⟨hrequest, hresponse, hword, hint, -⟩ := messages_come_back_iff (r := sampleRequest 7)
    parse_five rfl (wellFormed_sampleResponse 7)
  refine ⟨hrequest.mpr ⟨hword 7 (by decide), ?_, by decide⟩,
    hresponse.mpr ⟨hword 7 (by decide), ?_, by decide⟩⟩
  · rintro c hc
    cases hc
    exact ⟨hword 0 (by decide), travels_five, by simp [Canvas.countCanvas]⟩
  · rintro x hx d hd
    cases hx
    cases hd
    exact hint 21000 (by decide)

/-- **Version `2 ^ 53 + 1` of a session comes back as version `2 ^ 53`**, and
the response to the last version is not read at all. -/
theorem messages_do_not_come_back :
    (∃ p, (sampleRequest 9007199254740993).encode? = some p ∧
      CompileRequest.ofJson p = .ok (sampleRequest 9007199254740992)) ∧
    ∃ p, (sampleResponse 18446744073709551615).encode? = some p ∧
      CompileResponse.ofJson? p = none := by
  constructor
  · have hloaded := Canvas.loaded_of_parse parse_five
    have hword : Json.rereadWord? plainNumber? 9007199254740993 = some 9007199254740992 := by
      decide
    have hdepth : ∀ j ∈ (sampleRequest 9007199254740993).toJson?, j.depth ≤ Json.maxDepth := by
      decide
    have hplain : ((sampleRequest 9007199254740993).toJson?.bind Json.plain?).isSome := by
      decide +kernel
    obtain ⟨p, hp⟩ := Option.isSome_iff_exists.mp hplain
    obtain ⟨j, hj, hjp⟩ := Option.bind_eq_some_iff.mp hp
    have hencode := (CompileRequest.encode?_eq_some rfl hloaded.normal hj).mpr ⟨hdepth j hj, hjp⟩
    have hcanvas := hloaded.reread?_eq_self_iff.mpr ⟨travels_five, wordTravels_of_lt (by decide)⟩
    refine ⟨p, hencode, (CompileRequest.ofJson_encoded rfl hloaded hencode).mpr ?_⟩
    simp [CompileRequest.reread?, sampleRequest, hcanvas, hword]
  · have hword : Json.rereadWord? plainNumber? 18446744073709551615 = none := by
      decide
    have hdepth : (sampleResponse 18446744073709551615).toJson.depth ≤ Json.maxDepth := by
      decide
    have hplain : (sampleResponse 18446744073709551615).toJson.plain?.isSome := by
      decide
    obtain ⟨p, hp⟩ := Option.isSome_iff_exists.mp hplain
    have hwell := wellFormed_sampleResponse 18446744073709551615
    have hencode := (CompileResponse.encode?_eq_some hwell).mpr ⟨hdepth, hp⟩
    refine ⟨p, hencode, (CompileResponse.ofJson?_encoded hwell hencode).trans ?_⟩
    simp [CompileResponse.reread?, sampleResponse, hword]

end SolidityCanvas
