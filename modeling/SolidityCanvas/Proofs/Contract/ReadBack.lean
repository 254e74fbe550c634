/-
Interfaces that are written and parsed again.

The types of an interface are told twice: when an entry is made, and when a reader finds
its arguments in the written text.

* `depth_of_marshal`: forms are not nested too deep for a reader;
* `Arrangement.readEntries_entriesText`: so the entries are read back as they are;
* `InterfaceView.foldlM_add`: a reader tells the functions and events among them apart,
  one entry after another, and gives each a name of its own;
* `Arrangement.interface_parses_back`: what it knows of each is what was computed when the
  entry was made.
-/
import SolidityCanvas.Contract.InterfaceView
import SolidityCanvas.Proofs.Contract.Expansion
import SolidityCanvas.Proofs.Contract.Reading
import SolidityCanvas.Proofs.Json.Indented

namespace SolidityCanvas

open Solidity

/-! ### Names with numbers -/

namespace Solidity

variable {taken : List String} {name : String}

theorem append_toString_inj {i j : Nat} (h : name ++ toString i = name ++ toString j) : i = j := by
  have hdigits : toString i = toString j := String.append_right_inj name |>.mp h
  have hnumber := congrArg Json.wholeNumber? hdigits
  rw [Json.wholeNumber?_toString, Json.wholeNumber?_toString] at hnumber
  exact Option.some.inj hnumber

/-- A taken name is only given if all names before it are taken. -/
theorem mem_of_freshNameFrom_mem {tries i : Nat} (h : freshNameFrom taken name tries i ∈ taken) :
    ∀ k ≤ tries, name ++ toString (i + k) ∈ taken := by
  induction tries generalizing i with
  | zero =>
    intro k hk
    obtain rfl := Nat.le_zero.mp hk
    exact h
  | succ tries ih =>
    rw [freshNameFrom] at h
    split at h
    · rename_i hi
      rintro (_ | k) hk
      · simpa using hi
      · have hmem := ih h k (Nat.le_of_succ_le_succ hk)
        rwa [Nat.add_assoc, Nat.add_comm 1] at hmem
    · rename_i hi
      exact absurd (List.contains_iff_mem.mpr h) hi

/-- **A new name is new.** There are more names to try than names that are taken. -/
theorem freshName_notMem (taken : List String) (name : String) : freshName taken name ∉ taken := by
  rw [freshName]
  split
  · intro hmem
    let tried := (List.range (taken.length + 1)).map fun k => name ++ toString (0 + k)
    have hnodup : tried.Nodup := List.nodup_range.map fun i j hij =>
      Nat.add_left_cancel (append_toString_inj hij)
    have hsubset : tried ⊆ taken := by
      intro n hn
      obtain ⟨k, hk, rfl⟩ := List.mem_map.mp hn
      exact mem_of_freshNameFrom_mem hmem k (Nat.le_of_lt_succ (List.mem_range.mp hk))
    have hlength := (List.subperm_of_subset hnodup hsubset).length_le
    simp [tried] at hlength
  · rename_i hnot
    simpa using hnot

end Solidity

/-! ### Depth -/

theorem depth_argumentToJson_le {a : AbiArgument} {d : Nat}
    (h : ∀ c ∈ a.components, (argumentToJson c).depth ≤ d) : (argumentToJson a).depth ≤ d + 2 := by
  rw [argumentToJson_eq, Json.depth]
  refine Nat.succ_le_succ (Json.membersDepth_le.mpr ?_)
  simp only [argumentMembers, List.forall_mem_append, List.forall_mem_cons,
    Json.forall_mem_textMember, Json.forall_mem_ite_singleton, Json.forall_mem_flagMember,
    Json.depth]
  refine ⟨⟨⟨by simp, by simp⟩, fun _ => Nat.succ_le_succ (Json.itemsDepth_le.mpr ?_)⟩, by simp⟩
  exact List.forall_mem_map.mpr h

theorem InterfaceEntry.depth_toJson_le {x : InterfaceEntry} {d : Nat}
    (hinputs : ∀ a ∈ x.inputs.getD [], (argumentToJson a).depth ≤ d)
    (houtputs : ∀ a ∈ x.outputs, (argumentToJson a).depth ≤ d) : x.toJson.depth ≤ d + 2 := by
  have hinputs :
      (x.inputs.elim Json.null fun as => .array (as.map argumentToJson)).depth ≤ d + 1 := by
    cases h : x.inputs with
    | none => simp [Json.depth]
    | some as =>
      rw [h] at hinputs
      exact Nat.succ_le_succ (Json.itemsDepth_le.mpr (List.forall_mem_map.mpr hinputs))
  rw [toJson_eq, Json.depth]
  refine Nat.succ_le_succ (Json.membersDepth_le.mpr ?_)
  simp only [members, List.forall_mem_append, List.forall_mem_cons, Json.forall_mem_textMember,
    Json.forall_mem_ite_singleton, Json.forall_mem_flagMember, Json.depth]
  refine ⟨⟨⟨⟨⟨by simp, by simp⟩, hinputs, by simp⟩, fun _ => ?_⟩, by simp⟩, by simp⟩
  exact Nat.succ_le_succ (Json.itemsDepth_le.mpr (List.forall_mem_map.mpr houtputs))

/-- A component of a form is a form with one level less. -/
theorem exists_marshal_of_mem_components {u : UserTypes} {levels : Nat} {name type : String}
    {a c : AbiArgument} (h : marshal u (levels + 1) name type = .ok a) (hc : c ∈ a.components) :
    ∃ name type, marshal u levels name type = .ok c := by
  rcases u.marshal_cases levels name type with ⟨fields, -, -, hmarshal⟩ |
    ⟨-, -, word, internalType, -, hmarshal⟩ | ⟨-, -, f, hmarshal⟩
  · rw [hmarshal] at h
    obtain ⟨components, hcomponents, h⟩ := except_bind_eq_ok.mp h
    obtain rfl := Except.ok.inj h
    obtain ⟨f, -, hf⟩ := exists_mem_of_forall₂ (mapM_eq_ok_iff.mp hcomponents) c hc
    exact ⟨_, _, hf⟩
  · obtain rfl := Except.ok.inj (hmarshal.symm.trans h)
    cases hc
  · cases hmarshal.symm.trans h

/-- Each level of a form is an object, and a list of objects in it. -/
theorem depth_of_marshal {u : UserTypes} {levels : Nat} {name type : String} {a : AbiArgument}
    (h : marshal u levels name type = .ok a) : (argumentToJson a).depth ≤ 2 * levels := by
  induction levels generalizing name type a with
  | zero => cases h
  | succ levels ih =>
    refine depth_argumentToJson_le fun c hc => ?_
    obtain ⟨name, type, hc⟩ := exists_marshal_of_mem_components h hc
    exact ih hc

/-! ### Parameters -/

section

variable {u : UserTypes} {indexable : Bool} {d : String} {ds : List String}

/-- The type of an argument does not depend on its name, nor on whether it is indexed. -/
theorem typeText_mk (name name' type internalType : String) (components : List AbiArgument)
    (indexed indexed' : Bool) :
    (AbiArgument.mk name type internalType components indexed).typeText =
      (AbiArgument.mk name' type internalType components indexed').typeText := by
  rw [AbiArgument.typeText, AbiArgument.typeText, AbiArgument.abiType, AbiArgument.abiType]

theorem marshalParameter_eq_ok {p : MarshaledParameter}
    (h : marshalParameter u indexable d = .ok p) :
    p.argument.typeText = .ok p.typeText ∧
      (argumentToJson p.argument).depth ≤ 2 * maxNesting + 2 := by
  obtain ⟨a, ha, h⟩ := except_bind_eq_ok.mp h
  obtain ⟨text, htext, h⟩ := except_bind_eq_ok.mp h
  obtain rfl := Except.ok.inj h
  refine ⟨?_, depth_argumentToJson_le fun c hc => ?_⟩
  · rw [← mapError_eq_ok.mp htext]
    obtain ⟨name, type, internalType, components, indexed⟩ := a
    exact typeText_mk _ _ _ _ _ _ _
  · obtain ⟨name, type, hc⟩ := exists_marshal_of_mem_components ha hc
    exact depth_of_marshal hc

/-- Forms are those of parameters. -/
theorem exists_marshalParameters_of_forms {args : List AbiArgument}
    (h : Forms u indexable ds args) :
    ∃ ps, marshalParameters u indexable ds = .ok ps ∧ ps.map (·.argument) = args := by
  induction h with
  | nil => exact ⟨[], rfl, rfl⟩
  | cons hd _ ih =>
    obtain ⟨⟨p, hp, rfl⟩, -⟩ := hd
    obtain ⟨ps, hps, rfl⟩ := ih
    refine ⟨p :: ps, ?_, rfl⟩
    rw [marshalParameters, List.mapM_cons]
    exact except_bind_eq_ok.mpr ⟨p, mapError_eq_ok.mpr hp, except_bind_eq_ok.mpr ⟨ps, hps, rfl⟩⟩

theorem depth_of_forms {args : List AbiArgument} (h : Forms u indexable ds args) :
    ∀ a ∈ args, (argumentToJson a).depth ≤ 2 * maxNesting + 2 := by
  intro a ha
  obtain ⟨d, -, ⟨p, hp, rfl⟩, -⟩ := exists_mem_of_forall₂ h a ha
  exact (marshalParameter_eq_ok hp).2

end

/-! ### The written entries -/

theorem Entry.ExportedAs.depth_toJson_le {u : UserTypes} {e : Entry} {x : InterfaceEntry}
    (h : e.ExportedAs u x) : x.toJson.depth ≤ 2 * maxNesting + 4 := by
  obtain ⟨args, hargs, hforms⟩ := h.inputs
  refine InterfaceEntry.depth_toJson_le ?_ (depth_of_forms h.outputs)
  rw [hargs]
  exact depth_of_forms hforms

/-- **The entries of an interface are read back** from their text. -/
theorem Arrangement.readEntries_entriesText {a : Arrangement} {x : Interface}
    (hx : a.interface? = some x) :
    (Json.parse? x.entriesText).bind
      (Json.readList { type := "" } InterfaceEntry.read []) = some (x.entries.getD []) := by
  have hdepth : ∀ y ∈ x.entries.getD [], y.toJson.depth ≤ 2 * maxNesting + 4 := by
    intro y hy
    obtain ⟨e, -, he⟩ := exists_mem_of_forall₂ (exportedAs_interface hx) y hy
    exact he.depth_toJson_le
  have hreadable : ∀ j ∈ (x.entries.getD []).map (·.toJson), j.Readable :=
    List.forall_mem_map.mpr fun y _ => (y.regular_toJson).readable fun _ h => h
  have hmax : 2 * maxNesting + 4 < Json.maxDepth := by decide
  have hroom :
      (Json.array ((x.entries.getD []).map (·.toJson))).depth ≤ Json.maxDepth := by
    have hitems := Json.itemsDepth_le.mpr (List.forall_mem_map.mpr hdepth)
    exact Nat.succ_le_of_lt (Nat.lt_of_le_of_lt hitems hmax)
  rw [Interface.entriesText, Interface.entriesToJson, Json.parse?_indented hreadable, if_pos hroom,
    Option.bind_some]
  refine Json.readList_of_forall (f := some) (fun y hy j => InterfaceEntry.read_carried ?_)
    (Json.carries_refl _)
  exact Nat.le_of_lt (Nat.lt_of_le_of_lt (hdepth y hy) hmax)

/-! ### Functions and events -/

/-- The arguments of parameters, with their types. -/
def InterfaceView.arguments (ps : List MarshaledParameter) : List TypedArgument :=
  ps.map fun p => ⟨p.argument.name, p.typeText, p.argument.indexed⟩

namespace Entry

/-- Whether the entry is a function. -/
def isFunction (e : Entry) : Bool := e.component.template.kind == .function

/-- What a reader knows of a function or event is what the interface was made from: its name,
the types of its parameters and so its signature and identifier. -/
structure ReadBackAs (u : UserTypes) (e : Entry) (rawName : String)
    (inputs : List TypedArgument) (sig identifier : String) : Prop where
  name : rawName = e.exportedName
  inputs : ∃ ps, marshalParameters u e.isEvent e.parameters = .ok ps ∧
    inputs = InterfaceView.arguments ps
  signature : e.signature? u = some sig
  identifier : identifier = e.identifier sig

end Entry

namespace InterfaceView

variable {u : UserTypes} {e : Entry} {x : InterfaceEntry} {t : TypedEntry}

theorem typed_eq {ps : List MarshaledParameter}
    (h : ∀ p ∈ ps, p.argument.typeText = .ok p.typeText) :
    typed (ps.map (·.argument)) = .ok (arguments ps) := by
  rw [typed, mapM_eq_ok_iff, arguments, List.forall₂_map_left_iff, List.forall₂_map_right_iff,
    List.forall₂_same]
  intro p hp
  rw [h p hp]
  rfl

/-- The arguments of forms have the types that the parameters were found to have. -/
theorem typed_of_forms {indexable : Bool} {ds : List String} {args : List AbiArgument}
    (h : Forms u indexable ds args) : ∃ ps, marshalParameters u indexable ds = .ok ps ∧
      typed args = .ok (arguments ps) := by
  obtain ⟨ps, hps, rfl⟩ := exists_marshalParameters_of_forms h
  refine ⟨ps, hps, typed_eq fun p hp => ?_⟩
  obtain ⟨d, -, hd⟩ := exists_mem_of_forall₂ (mapM_eq_ok_iff.mp hps) p hp
  exact (marshalParameter_eq_ok (mapError_eq_ok.mp hd)).1

/-- The entry that is read is the one that was made. -/
structure KnownAs (u : UserTypes) (e : Entry) (t : TypedEntry) : Prop where
  type : t.entry.type = e.component.template.kind.text
  name : t.entry.name = e.exportedName
  inputs : ∃ ps, marshalParameters u e.isEvent e.parameters = .ok ps ∧ t.inputs = arguments ps

theorem exists_typedEntry (h : e.ExportedAs u x) :
    ∃ t, typedEntry x = .ok t ∧ KnownAs u e t := by
  obtain ⟨args, hargs, hforms⟩ := h.inputs
  obtain ⟨ps, hps, hinputs⟩ := typed_of_forms hforms
  obtain ⟨rs, -, houtputs⟩ := typed_of_forms h.outputs
  refine ⟨⟨x, arguments ps, arguments rs⟩, ?_, h.type, h.name, ps, hps, rfl⟩
  rw [typedEntry, hargs, Option.getD_some, hinputs, houtputs]
  rfl

theorem exists_typedEntries {es : List Entry} {xs : List InterfaceEntry}
    (h : List.Forall₂ (Entry.ExportedAs u) es xs) :
    ∃ ts, xs.mapM typedEntry = .ok ts ∧ List.Forall₂ (KnownAs u) es ts := by
  induction h with
  | nil => exact ⟨[], rfl, .nil⟩
  | cons he _ ih =>
    obtain ⟨t, ht, hknown⟩ := exists_typedEntry he
    obtain ⟨ts, hts, hrest⟩ := ih
    refine ⟨t :: ts, ?_, .cons hknown hrest⟩
    rw [List.mapM_cons]
    exact except_bind_eq_ok.mpr ⟨t, ht, except_bind_eq_ok.mpr ⟨ts, hts, rfl⟩⟩

/-- What is known of a function. -/
def ReadsMethod (u : UserTypes) (e : Entry) (m : String × MethodView) : Prop :=
  e.ReadBackAs u m.2.rawName m.2.inputs m.2.signature m.2.identifier

/-- What is known of an event. -/
def ReadsEvent (u : UserTypes) (e : Entry) (m : String × EventView) : Prop :=
  e.ReadBackAs u m.2.rawName m.2.inputs m.2.signature m.2.identifier

theorem signature_of_knownAs (h : KnownAs u e t) (hkind : e.isFunction = true ∨ e.isEvent = true) :
    e.signature? u = some (signature t.entry.name (t.inputs.map (·.typeText))) := by
  obtain ⟨ps, hps, hinputs⟩ := h.inputs
  have htexts : t.inputs.map (·.typeText) = ps.map (·.typeText) := by
    rw [hinputs, arguments, List.map_map]
    rfl
  rw [h.name, htexts, Entry.signature?, hps]
  rcases hkind with hkind | hkind
  · rw [beq_iff_eq.mp hkind]
    rfl
  · rw [beq_iff_eq.mp hkind]
    rfl

/-- A function is taken in under a new name. -/
theorem add_function (h : KnownAs u e t) (hkind : e.isFunction = true) (v : InterfaceView) :
    ∃ m, ReadsMethod u e m ∧ m.1 ∉ v.methods.map (·.1) ∧
      add v t = .ok { v with methods := v.methods ++ [m] } := by
  have htype : t.entry.type = "function" := by rw [h.type, beq_iff_eq.mp hkind]; rfl
  have hevent : e.isEvent = false := by rw [Entry.isEvent, beq_iff_eq.mp hkind]; rfl
  refine ⟨(freshName (v.methods.map (·.1)) t.entry.name,
    method t.entry.name t.entry.mutability t.inputs t.outputs), ⟨h.name, h.inputs, ?_, ?_⟩,
    freshName_notMem _ _, ?_⟩
  · exact signature_of_knownAs h (.inl hkind)
  · rw [Entry.identifier, hevent]
    rfl
  · rw [add, htype]
    rfl

/-- An event is taken in under a new name. -/
theorem add_event (h : KnownAs u e t) (hkind : e.isEvent = true) (v : InterfaceView) :
    ∃ m, ReadsEvent u e m ∧ m.1 ∉ v.events.map (·.1) ∧
      add v t = .ok { v with events := v.events ++ [m] } := by
  have htype : t.entry.type = "event" := by rw [h.type, beq_iff_eq.mp hkind]; rfl
  refine ⟨(freshName (v.events.map (·.1)) t.entry.name, event t.entry.name t.inputs),
    ⟨h.name, h.inputs, ?_, ?_⟩, freshName_notMem _ _, ?_⟩
  · exact signature_of_knownAs h (.inr hkind)
  · rw [Entry.identifier, hkind]
    rfl
  · rw [add, htype]
    rfl

/-- The constructor is neither. -/
theorem add_creation (h : KnownAs u e t) (hkind : e.component.template.kind = .creation)
    (v : InterfaceView) : ∃ creation, add v t = .ok { v with creation } := by
  have htype : t.entry.type = "constructor" := by rw [h.type, hkind]; rfl
  refine ⟨callText "constructor" t.entry.mutability t.inputs [], ?_⟩
  rw [add, htype]
  rfl

/-- What some entries have added: their functions and their events, each in their order and
under different names. -/
structure Rows (u : UserTypes) (es : List Entry) (v w : InterfaceView) : Prop where
  methods : ∃ ms, w.methods = v.methods ++ ms ∧
    List.Forall₂ (ReadsMethod u) (es.filter (·.isFunction)) ms
  events : ∃ ms, w.events = v.events ++ ms ∧
    List.Forall₂ (ReadsEvent u) (es.filter (·.isEvent)) ms
  methodNames : (v.methods.map (·.1)).Nodup → (w.methods.map (·.1)).Nodup
  eventNames : (v.events.map (·.1)).Nodup → (w.events.map (·.1)).Nodup

theorem Rows.append {es es' : List Entry} {v w y : InterfaceView} (h : Rows u es v w)
    (h' : Rows u es' w y) : Rows u (es ++ es') v y := by
  obtain ⟨⟨ms, hms, hmethods⟩, ⟨ns, hns, hevents⟩, hnames, hnames'⟩ := h
  obtain ⟨⟨ms', hms', hmethods'⟩, ⟨ns', hns', hevents'⟩, hmore, hmore'⟩ := h'
  refine ⟨⟨ms ++ ms', by rw [hms', hms, List.append_assoc], ?_⟩,
    ⟨ns ++ ns', by rw [hns', hns, List.append_assoc], ?_⟩, hmore ∘ hnames, hmore' ∘ hnames'⟩
  · rw [List.filter_append]
    exact List.rel_append hmethods hmethods'
  · rw [List.filter_append]
    exact List.rel_append hevents hevents'

theorem nodup_concat {α : Type} {l : List (String × α)} {m : String × α} (h : m.1 ∉ l.map (·.1))
    (hl : (l.map (·.1)).Nodup) : ((l ++ [m]).map (·.1)).Nodup := by
  rw [List.map_append, List.map_singleton, List.nodup_append_comm, List.singleton_append,
    List.nodup_cons]
  exact ⟨h, hl⟩

/-- **One entry** that takes part in an interface is taken in. -/
theorem exists_add (h : KnownAs u e t) (hpart : e.takesPart = true) (v : InterfaceView) :
    ∃ w, add v t = .ok w ∧ Rows u [e] v w := by
  cases hkind : e.component.template.kind with
  | function =>
    have hfunction : e.isFunction = true := beq_iff_eq.mpr hkind
    have hevent : e.isEvent = false := by rw [Entry.isEvent, hkind]; rfl
    obtain ⟨m, hm, hnew, hadd⟩ := add_function h hfunction v
    refine ⟨_, hadd, ⟨⟨[m], rfl, ?_⟩, ⟨[], by simp, ?_⟩, nodup_concat hnew, id⟩⟩
    · rw [List.filter_cons_of_pos hfunction]
      exact .cons hm .nil
    · rw [List.filter_cons_of_neg (by simp [hevent])]
      exact .nil
  | event =>
    have hevent : e.isEvent = true := beq_iff_eq.mpr hkind
    have hfunction : e.isFunction = false := by rw [Entry.isFunction, hkind]; rfl
    obtain ⟨m, hm, hnew, hadd⟩ := add_event h hevent v
    refine ⟨_, hadd, ⟨⟨[], by simp, ?_⟩, ⟨[m], rfl, ?_⟩, id, nodup_concat hnew⟩⟩
    · rw [List.filter_cons_of_neg (by simp [hfunction])]
      exact .nil
    · rw [List.filter_cons_of_pos hevent]
      exact .cons hm .nil
  | creation =>
    have hfunction : e.isFunction = false := by rw [Entry.isFunction, hkind]; rfl
    have hevent : e.isEvent = false := by rw [Entry.isEvent, hkind]; rfl
    obtain ⟨creation, hadd⟩ := add_creation h hkind v
    refine ⟨_, hadd, ⟨⟨[], by simp, ?_⟩, ⟨[], by simp, ?_⟩, id, id⟩⟩
    · rw [List.filter_cons_of_neg (by simp [hfunction])]
      exact .nil
    · rw [List.filter_cons_of_neg (by simp [hevent])]
      exact .nil
  | _ => simp [Entry.takesPart, hkind] at hpart

/-- **One entry after another** is taken in. -/
theorem exists_foldlM_add {es : List Entry} {ts : List TypedEntry}
    (h : List.Forall₂ (KnownAs u) es ts) (hpart : ∀ e ∈ es, e.takesPart = true)
    (v : InterfaceView) : ∃ w, ts.foldlM add v = .ok w ∧ Rows u es v w := by
  induction h generalizing v with
  | nil => exact ⟨v, rfl, ⟨[], by simp, .nil⟩, ⟨[], by simp, .nil⟩, id, id⟩
  | cons he _ ih =>
    obtain ⟨hpart, hrest⟩ := List.forall_mem_cons.mp hpart
    obtain ⟨w, hadd, hrows⟩ := exists_add he hpart v
    obtain ⟨y, hfold, hrows'⟩ := ih hrest w
    refine ⟨y, ?_, hrows.append hrows'⟩
    rw [List.foldlM_cons, hadd]
    exact hfold

end InterfaceView

/-- **The interface parses back.**  Whatever is arranged, there is an interface unless the work
on it breaks off at an entry.  Its written entries are read back as they are, and a reader
accepts them.  What it makes of them has one method for each function that is exported and one
event for each event that is exported, in their order and under different names, with the name,
the types of the parameters, the signature and the identifier that were computed when the entry
was made. -/
theorem Arrangement.interface_parses_back (a : Arrangement) :
    (a.interface? = none ↔ ∃ e ∈ a.entries, e.BreaksOff a.userTypes) ∧
    ∀ x, a.interface? = some x →
      List.Forall₂ (Entry.ExportedAs a.userTypes) a.exported (x.entries.getD []) ∧
      (Json.parse? x.entriesText).bind
        (Json.readList { type := "" } InterfaceEntry.read []) = some (x.entries.getD []) ∧
      ∃ v, InterfaceView.parse x.entriesText = .ok v ∧
        List.Forall₂ (InterfaceView.ReadsMethod a.userTypes) (a.exported.filter (·.isFunction))
          v.methods ∧
        List.Forall₂ (InterfaceView.ReadsEvent a.userTypes) (a.exported.filter (·.isEvent))
          v.events ∧
        (v.methods.map (·.1)).Nodup ∧ (v.events.map (·.1)).Nodup := by
  refine ⟨interface?_eq_none_iff, fun x hx => ?_⟩
  have hexported := exportedAs_interface hx
  have hread := readEntries_entriesText hx
  refine ⟨hexported, hread, ?_⟩
  obtain ⟨ts, hts, hknown⟩ := InterfaceView.exists_typedEntries hexported
  have hpart : ∀ e ∈ a.exported, e.takesPart = true := fun e he =>
    (Bool.and_eq_true_iff.mp (List.mem_filter.mp he).2).1
  obtain ⟨v, hv, ⟨ms, hms, hmethods⟩, ⟨ns, hns, hevents⟩, hnames, hnames'⟩ :=
    InterfaceView.exists_foldlM_add hknown hpart {}
  rw [List.nil_append] at hms hns
  rw [← hms] at hmethods
  rw [← hns] at hevents
  refine ⟨v, ?_, hmethods, hevents, hnames .nil, hnames' .nil⟩
  obtain ⟨j, hj, hentries⟩ := Option.bind_eq_some_iff.mp hread
  rw [InterfaceView.parse, hj]
  dsimp only
  rw [hentries]
  exact except_bind_eq_ok.mpr ⟨ts, hts, hv⟩

/-- **Nothing is parsed back** where the work on an interface breaks off. -/
theorem Arrangement.oversized_is_not_parsed : Catalog.build Catalog.recordFiles = .ok .records ∧
    ∃ a, Canvas.oversized.arrange .records = .ok (.ok a) ∧
      ¬∃ x v, a.interface? = some x ∧ InterfaceView.parse x.entriesText = .ok v := by
  obtain ⟨a, ha, -, hnone⟩ := Canvas.arrange_oversized
  refine ⟨Catalog.build_recordFiles, a, ha, ?_⟩
  rintro ⟨x, v, hx, -⟩
  cases hnone.symm.trans hx

end SolidityCanvas
