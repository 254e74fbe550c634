/-
What the interface of a contract lists.

An entry takes part if it is an event, the constructor or a function that can be
called, and it is exportable if each of its declarations has a form.  Of an entry
that is not, the first declaration without a form decides: the entry is left out,
or there is no room for a type and the work breaks off.

* `Entry.contribution?_cases`: what an entry gives to an interface, whatever its
  kind is;
* `Interface.foldlM_add`: one entry after another gives to the list of entries and
  the selectors, or to the list of what is left out, and nothing is taken back;
* `Arrangement.interface?_eq_none_iff`: when there is no interface;
* `Arrangement.interface_accounts`: if there is one, each entry that takes part is
  listed once, in the one list or in the other.
-/
import SolidityCanvas.Contract.Interface
import SolidityCanvas.Proofs.Catalog.Build
import SolidityCanvas.Proofs.Value.Named
import SolidityCanvas.Proofs.Basic

namespace SolidityCanvas

open Solidity

/-! ### Declarations -/

/-- A form has the name of what it is the form of. -/
theorem name_of_marshal {u : UserTypes} {levels : Nat} {name type : String} {a : AbiArgument}
    (h : marshal u levels name type = .ok a) : a.name = name := by
  cases levels with
  | zero => cases h
  | succ levels =>
    rw [marshal] at h
    dsimp only at h
    split at h
    · cases h
    split at h
    · obtain rfl := Except.ok.inj h
      rfl
    split at h
    · obtain ⟨components, -, h⟩ := except_bind_eq_ok.mp h
      obtain rfl := Except.ok.inj h
      rfl
    split at h
    · obtain rfl := Except.ok.inj h
      rfl
    · cases h

/-- The forms of some declarations, in their order. -/
def Forms (u : UserTypes) (indexable : Bool) (ds : List String) (args : List AbiArgument) : Prop :=
  List.Forall₂ (fun d a => (∃ p, marshalParameter u indexable d = .ok p ∧ p.argument = a) ∧
    a.name = (Parameter.read d).name) ds args

section

variable {u : UserTypes} {indexable : Bool} {ds : List String} {ps : List MarshaledParameter}

theorem forms_of_marshalParameters (h : marshalParameters u indexable ds = .ok ps) :
    Forms u indexable ds (ps.map (·.argument)) := by
  rw [Forms, List.forall₂_map_right_iff]
  refine (mapM_eq_ok_iff.mp h).imp fun d p hp => ?_
  have hp := mapError_eq_ok.mp hp
  refine ⟨⟨p, hp, rfl⟩, ?_⟩
  obtain ⟨a, ha, hp⟩ := except_bind_eq_ok.mp hp
  obtain ⟨_, -, hp⟩ := except_bind_eq_ok.mp hp
  obtain rfl := Except.ok.inj hp
  exact (name_of_marshal ha : a.name = _)

/-- Declarations have forms if each of them has one. -/
theorem exists_marshalParameters_iff : (∃ ps, marshalParameters u indexable ds = .ok ps) ↔
    ds.all (fun d => (marshalParameter u indexable d).isOk) = true := by
  rw [List.all_eq_true]
  constructor
  · rintro ⟨ps, hps⟩ d hd
    obtain ⟨p, -, hp⟩ := exists_mem_of_forall₂ (mapM_eq_ok_iff.mp hps).flip d hd
    rw [mapError_eq_ok.mp hp]
    rfl
  · refine fun h => exists_mapM_ok fun d hd => ?_
    cases hp : marshalParameter u indexable d with
    | ok p => exact ⟨p, rfl⟩
    | error f =>
      have hok := h d hd
      rw [hp] at hok
      cases hok

theorem marshalParameters_append (ds es : List String) :
    marshalParameters u indexable (ds ++ es) = do
      let ps ← marshalParameters u indexable ds
      let rs ← marshalParameters u indexable es
      return ps ++ rs := List.mapM_append

/-- The first declaration without a form decides what comes of all. -/
theorem marshalParameters_eq_error_iff {x : ExportFault} :
    marshalParameters u indexable ds = .error x ↔ ∃ before d after f,
      ds = before ++ d :: after ∧ (∀ c ∈ before, ∃ p, marshalParameter u indexable c = .ok p) ∧
      marshalParameter u indexable d = .error f ∧ f.ending d = x := by
  rw [marshalParameters, mapM_eq_error_iff]
  simp only [mapError_eq_ok, mapError_eq_error, ← exists_and_left]

end

/-- Only a type without room breaks the work off. -/
theorem MarshalFault.ending_cases (f : MarshalFault) (d : String) :
    (f = .refused .noRoom ∧ f.ending d = .broken) ∨
    (f ≠ .refused .noRoom ∧
      f.ending d = .leftOut ("parameter " ++ Text.quoted d ++ ": " ++ f.message)) := by
  rw [ending.eq_def]
  split
  · exact .inl ⟨rfl, rfl⟩
  · rename_i hne
    exact .inr ⟨hne, rfl⟩

namespace Entry

/-- Whether the entry is an event, whose parameters can be indexed. -/
def isEvent (e : Entry) : Bool := e.component.template.kind == .event

/-- Whether the entry takes part in the interface. -/
def takesPart (e : Entry) : Bool :=
  match e.component.template.kind with
  | .event | .creation => true
  | .function => e.isCallable
  | _ => false

/-- The declarations of the parameters. -/
def parameters (e : Entry) : List String := e.component.properties.texts "params"

/-- The declarations of what is returned, which only a function does. -/
def returned (e : Entry) : List String :=
  if e.component.template.kind == .function then e.component.properties.texts "returns" else []

/-- The name in the interface, where the constructor has none. -/
def exportedName (e : Entry) : String :=
  if e.component.template.kind == .creation then "" else e.component.properties.text "name"

/-- Whether each declaration has a form. -/
def isExportable (e : Entry) (u : UserTypes) : Bool :=
  (e.parameters ++ e.returned).all fun d => (marshalParameter u e.isEvent d).isOk

/-- The canonical signature of a function or event, if its parameters have forms. -/
def signature? (e : Entry) (u : UserTypes) : Option String :=
  match e.component.template.kind with
  | .function | .event =>
    (marshalParameters u e.isEvent e.parameters).toOption.map fun ps =>
      signature e.exportedName (ps.map (·.typeText))
  | _ => none

/-- The identifier that belongs to a signature: of an event all of its digest, of a
function the first four bytes. -/
def identifier (e : Entry) (sig : String) : String :=
  if e.isEvent then topicText sig else selectorText sig

/-- The entry of the interface says what the entry declares. -/
structure ExportedAs (u : UserTypes) (e : Entry) (x : InterfaceEntry) : Prop where
  type : x.type = e.component.template.kind.text
  name : x.name = e.exportedName
  inputs : ∃ args, x.inputs = some args ∧ Forms u e.isEvent e.parameters args
  outputs : Forms u e.isEvent e.returned x.outputs

/-- The first of its declarations that has no form, and why it has none. -/
def FailsAt (u : UserTypes) (e : Entry) (d : String) (f : MarshalFault) : Prop :=
  ∃ before after, e.parameters ++ e.returned = before ++ d :: after ∧
    (∀ c ∈ before, ∃ p, marshalParameter u e.isEvent c = .ok p) ∧
    marshalParameter u e.isEvent d = .error f

/-- The entry is left out because of the first of its declarations that has no
form. -/
structure LeftOutAs (u : UserTypes) (e : Entry) (s : Skipped) : Prop where
  id : s.instanceId = e.id
  reason : ∃ d f, e.FailsAt u d f ∧ f ≠ .refused .noRoom ∧
    s.reason = "parameter " ++ Text.quoted d ++ ": " ++ f.message

/-- The work breaks off at the entry: it takes part, and the first of its
declarations that has no form has none because there is no room for its type. -/
def BreaksOff (u : UserTypes) (e : Entry) : Prop :=
  e.takesPart = true ∧ ∃ d, e.FailsAt u d (.refused .noRoom)

variable {e : Entry} {u : UserTypes}

/-- What an entry gives that takes part, whatever its kind is. -/
theorem contribution?_of_takesPart (h : e.takesPart = true) (u : UserTypes) :
    ∃ mutability, e.contribution? u = some do
      let ps ← marshalParameters u e.isEvent e.parameters
      let rs ← marshalParameters u e.isEvent e.returned
      return {
        entry := {
          type := e.component.template.kind.text, name := e.exportedName
          inputs := some (ps.map (·.argument)), outputs := rs.map (·.argument), mutability }
        selector := (e.signature? u).map fun sig => (sig, e.identifier sig) } := by
  cases hkind : e.component.template.kind with
  | function =>
    have hcallable : e.isCallable = true := by simpa [takesPart, hkind] using h
    have hevent : e.isEvent = false := by rw [isEvent, hkind]; rfl
    let given := e.component.properties.text "mutability"
    refine ⟨if given.isEmpty then "nonpayable" else given, ?_⟩
    rw [contribution?, hkind]
    dsimp only
    rw [if_pos hcallable, functionContribution, hevent]
    simp only [returned, exportedName, signature?, identifier, hkind, hevent, parameters]
    cases marshalParameters u false (e.component.properties.texts "params") <;> rfl
  | event =>
    have hevent : e.isEvent = true := by rw [isEvent, hkind]; rfl
    refine ⟨"", ?_⟩
    rw [contribution?, hkind]
    dsimp only
    rw [eventContribution, hevent]
    simp only [returned, exportedName, signature?, identifier, hkind, hevent, parameters]
    cases marshalParameters u true (e.component.properties.texts "params") <;> rfl
  | creation =>
    have hevent : e.isEvent = false := by rw [isEvent, hkind]; rfl
    refine ⟨if e.component.properties.flag "payable" then "payable" else "nonpayable", ?_⟩
    rw [contribution?, hkind]
    dsimp only
    rw [creationContribution, hevent]
    simp only [returned, exportedName, signature?, hkind, parameters]
    cases marshalParameters u false (e.component.properties.texts "params") <;> rfl
  | _ => simp [takesPart, hkind] at h

/-- **What an entry gives to an interface**: nothing if it takes no part, else an
entry, with a selector if it has a signature, or what comes of its first declaration
without a form. -/
theorem contribution?_cases (e : Entry) (u : UserTypes) :
    (e.takesPart = false ∧ e.contribution? u = none) ∨
    (e.takesPart = true ∧ e.isExportable u = true ∧ ∃ c, e.contribution? u = some (.ok c) ∧
      e.ExportedAs u c.entry ∧ c.selector = (e.signature? u).map fun sig => (sig, e.identifier sig)) ∨
    (e.takesPart = true ∧ e.isExportable u = false ∧ ∃ d f, e.FailsAt u d f ∧
      e.contribution? u = some (.error (f.ending d))) := by
  cases hpart : e.takesPart with
  | false =>
    refine .inl ⟨rfl, ?_⟩
    rw [takesPart] at hpart
    rw [contribution?]
    split <;> rename_i hkind <;> simp_all
  | true =>
    obtain ⟨mutability, hgives⟩ := contribution?_of_takesPart hpart u
    have hexportable : (∃ ps, marshalParameters u e.isEvent (e.parameters ++ e.returned) = .ok ps) ↔
        e.isExportable u = true := exists_marshalParameters_iff
    right
    cases hall : marshalParameters u e.isEvent (e.parameters ++ e.returned) with
    | ok qs =>
      refine .inl ⟨rfl, hexportable.mp ⟨qs, hall⟩, ?_⟩
      rw [marshalParameters_append] at hall
      obtain ⟨ps, hps, hall⟩ := except_bind_eq_ok.mp hall
      obtain ⟨rs, hrs, -⟩ := except_bind_eq_ok.mp hall
      rw [hps, hrs] at hgives
      exact ⟨_, hgives, ⟨rfl, rfl, ⟨_, rfl, forms_of_marshalParameters hps⟩,
        forms_of_marshalParameters hrs⟩, rfl⟩
    | error x =>
      obtain ⟨before, d, after, f, hds, hbefore, hf, rfl⟩ := marshalParameters_eq_error_iff.mp hall
      refine .inr ⟨rfl, ?_, d, f, ⟨before, after, hds, hbefore, hf⟩, ?_⟩
      · rw [← Bool.not_eq_true, ← hexportable]
        rintro ⟨ps, hps⟩
        cases hall.symm.trans hps
      · rw [marshalParameters_append] at hall
        obtain hps | ⟨ps, hps, hall⟩ := except_bind_eq_error.mp hall
        · rw [hgives, hps]
          rfl
        · have hrs := (except_bind_eq_error_iff fun rs => ⟨ps ++ rs, rfl⟩).mp hall
          rw [hgives, hps, hrs]
          rfl

/-- There is one first declaration without a form. -/
theorem FailsAt.unique {d d' : String} {f f' : MarshalFault} (h : e.FailsAt u d f)
    (h' : e.FailsAt u d' f') : f.ending d = f'.ending d' := by
  obtain ⟨before, after, hds, hbefore, hf⟩ := h
  obtain ⟨before', after', hds', hbefore', hf'⟩ := h'
  have hfault := marshalParameters_eq_error_iff.mpr ⟨before, d, after, f, hds, hbefore, hf, rfl⟩
  have hfault' :=
    marshalParameters_eq_error_iff.mpr ⟨before', d', after', f', hds', hbefore', hf', rfl⟩
  exact Except.error.inj (hfault.symm.trans hfault')

/-- What the entry adds to the interface, if it is exported. -/
def export? (u : UserTypes) (e : Entry) : Option Contribution :=
  match e.contribution? u with
  | some (.ok c) => some c
  | _ => none

/-- The note that the entry is left out, if it is. -/
def refusal? (u : UserTypes) (e : Entry) : Option Skipped :=
  match e.contribution? u with
  | some (.error (.leftOut reason)) => some ⟨e.id, reason⟩
  | _ => none

theorem breaksOff_iff : e.BreaksOff u ↔ e.contribution? u = some (.error .broken) := by
  obtain ⟨hpart, hnone⟩ | ⟨hpart, hexportable, c, hc, -⟩ | ⟨hpart, -, d, f, hfails, hf⟩ :=
    contribution?_cases e u
  · simp [BreaksOff, hpart, hnone]
  · rw [hc]
    refine iff_of_false ?_ (by simp)
    rintro ⟨-, d, before, after, hds, -, hd⟩
    have hok := List.all_eq_true.mp hexportable d (by simp [hds])
    rw [hd] at hok
    cases hok
  · rw [hf]
    constructor
    · rintro ⟨-, d', hfails'⟩
      rw [hfails.unique hfails']
      rfl
    · intro hbroken
      obtain ⟨rfl, -⟩ | ⟨-, hleft⟩ := f.ending_cases d
      · exact ⟨hpart, d, hfails⟩
      · rw [hleft] at hbroken
        cases hbroken

theorem isSome_export? (e : Entry) (u : UserTypes) :
    (e.export? u).isSome = (e.takesPart && e.isExportable u) := by
  obtain ⟨hpart, hnone⟩ | ⟨hpart, hexportable, c, hc, -⟩ | ⟨hpart, hnot, d, f, -, hf⟩ :=
    contribution?_cases e u
  · simp [export?, hnone, hpart]
  · simp [export?, hc, hpart, hexportable]
  · simp [export?, hf, hnot]

theorem isSome_refusal? (h : ¬e.BreaksOff u) :
    (e.refusal? u).isSome = (e.takesPart && !e.isExportable u) := by
  obtain ⟨hpart, hnone⟩ | ⟨hpart, hexportable, c, hc, -⟩ | ⟨hpart, hnot, d, f, hfails, hf⟩ :=
    contribution?_cases e u
  · simp [refusal?, hnone, hpart]
  · simp [refusal?, hc, hexportable]
  · obtain ⟨rfl, -⟩ | ⟨-, hleft⟩ := f.ending_cases d
    · exact absurd ⟨hpart, d, hfails⟩ h
    · simp [refusal?, hf, hleft, hpart, hnot]

theorem exportedAs_of_export? {c : Contribution} (h : e.export? u = some c) :
    e.ExportedAs u c.entry ∧
      c.selector = (e.signature? u).map fun sig => (sig, e.identifier sig) := by
  obtain ⟨-, hnone⟩ | ⟨-, -, d, hd, hexported⟩ | ⟨-, -, d, f, -, hf⟩ := contribution?_cases e u
  · simp [export?, hnone] at h
  · obtain rfl : d = c := by simpa [export?, hd] using h
    exact hexported
  · simp [export?, hf] at h

theorem leftOutAs_of_refusal? {s : Skipped} (h : e.refusal? u = some s) : e.LeftOutAs u s := by
  obtain ⟨-, hnone⟩ | ⟨-, -, d, hd, -⟩ | ⟨-, -, d, f, hfails, hf⟩ := contribution?_cases e u
  · simp [refusal?, hnone] at h
  · simp [refusal?, hd] at h
  · obtain ⟨-, hbroken⟩ | ⟨hne, hleft⟩ := f.ending_cases d
    · simp [refusal?, hf, hbroken] at h
    · obtain rfl : _ = s := by simpa [refusal?, hf, hleft] using h
      exact ⟨rfl, d, f, hfails, hne, rfl⟩

end Entry

/-! ### One entry after another -/

namespace Interface

variable {u : UserTypes} {e : Entry} {x y : Interface}

/-- The work breaks off at some entries, whatever there is already. -/
theorem add_eq_none : x.add u e = none ↔ e.BreaksOff u := by
  rw [Entry.breaksOff_iff, add]
  split <;> simp [*]

/-- What one entry changes: it is added to one list at most, and nothing else is
touched if it is left out. -/
theorem add_eq_some (h : x.add u e = some y) :
    y.entries.getD [] = x.entries.getD [] ++ ((e.export? u).map (·.entry)).toList ∧
      y.skipped = x.skipped ++ (e.refusal? u).toList ∧
      y.selectors = ((e.export? u).bind (·.selector)).elim x.selectors
        fun s => Value.insertNamed s.1 s.2 x.selectors := by
  rw [add] at h
  rw [Entry.export?, Entry.refusal?]
  split at h
  · rename_i hnone
    obtain rfl := Option.some.inj h
    simp [hnone]
  · rename_i c hc
    obtain rfl := Option.some.inj h
    simp [hc, push]
  · rename_i reason hreason
    obtain rfl := Option.some.inj h
    simp [hreason]
  · cases h

/-- **One entry after another**: the lists hold what the entries add, in their
order, and of the selectors with one signature the last one stays. -/
theorem foldlM_add {es : List Entry} (h : es.foldlM (add u) x = some y) :
    (∀ e ∈ es, ¬e.BreaksOff u) ∧
      y.entries.getD [] = x.entries.getD [] ++ (es.filterMap (·.export? u)).map (·.entry) ∧
      y.skipped = x.skipped ++ es.filterMap (·.refusal? u) ∧
      y.selectors = ((es.filterMap (·.export? u)).filterMap (·.selector)).foldl
        (fun sorted s => Value.insertNamed s.1 s.2 sorted) x.selectors := by
  induction es generalizing x with
  | nil =>
    obtain rfl := Option.some.inj h
    simp
  | cons e es ih =>
    rw [List.foldlM_cons] at h
    obtain ⟨z, hz, h⟩ := Option.bind_eq_some_iff.mp h
    obtain ⟨hgoes, hentries, hskipped, hselectors⟩ := ih h
    obtain ⟨hentry, hskip, hselector⟩ := add_eq_some hz
    rw [hentries, hskipped, hselectors, hentry, hskip, hselector]
    refine ⟨List.forall_mem_cons.mpr ⟨fun hbreaks => ?_, hgoes⟩, ?_, ?_, ?_⟩
    · rw [add_eq_none.mpr hbreaks] at hz
      cases hz
    · cases he : e.export? u <;> simp [he]
    · cases he : e.refusal? u <;> simp [he]
    · cases he : e.export? u with
      | none => simp [he]
      | some c => cases hc : c.selector <;> simp [he, hc]

/-- The work breaks off at the first entry where it does. -/
theorem foldlM_add_eq_none {es : List Entry} :
    es.foldlM (add u) x = none ↔ ∃ e ∈ es, e.BreaksOff u := by
  induction es generalizing x with
  | nil => simp
  | cons e es ih =>
    rw [List.foldlM_cons, Option.bind_eq_bind, List.exists_mem_cons_iff, ← add_eq_none]
    cases h : x.add u e with
    | none => simp
    | some z => simpa using ih

end Interface

/-! ### The interface -/

namespace Arrangement

/-- The types that the arrangement declares. -/
def userTypes (a : Arrangement) : UserTypes := UserTypes.ofEntries a.entries

/-- The entries that are exported. -/
def exported (a : Arrangement) : List Entry :=
  a.entries.filter fun e => e.takesPart && e.isExportable a.userTypes

/-- The entries that take part but cannot be exported. -/
def leftOut (a : Arrangement) : List Entry :=
  a.entries.filter fun e => e.takesPart && !e.isExportable a.userTypes

/-- **There is no interface** if the work breaks off at an entry. -/
theorem interface?_eq_none_iff {a : Arrangement} :
    a.interface? = none ↔ ∃ e ∈ a.entries, e.BreaksOff a.userTypes :=
  Interface.foldlM_add_eq_none

section

variable {a : Arrangement} {x : Interface} (h : a.interface? = some x)

include h

theorem exportedAs_interface :
    List.Forall₂ (Entry.ExportedAs a.userTypes) a.exported (x.entries.getD []) := by
  obtain ⟨-, hentries, -, -⟩ := Interface.foldlM_add h
  rw [hentries, Option.getD_none, List.nil_append, List.forall₂_map_right_iff, exported]
  simp only [← Entry.isSome_export?]
  exact forall₂_filterMap fun e _ c hc => (Entry.exportedAs_of_export? hc).1

theorem leftOutAs_interface :
    List.Forall₂ (Entry.LeftOutAs a.userTypes) a.leftOut x.skipped := by
  obtain ⟨hgoes, -, hskipped, -⟩ := Interface.foldlM_add h
  have hleft : a.leftOut = a.entries.filter fun e => (e.refusal? a.userTypes).isSome :=
    List.filter_congr fun e he => (Entry.isSome_refusal? (hgoes e he)).symm
  rw [hskipped, List.nil_append, hleft]
  exact forall₂_filterMap fun e _ s hs => Entry.leftOutAs_of_refusal? hs

/-- The selectors are those of the entries that are exported. -/
theorem selectors_interface :
    x.selectors = Value.sortNamed (a.exported.filterMap fun e =>
      (e.signature? a.userTypes).map fun sig => (sig, e.identifier sig)) := by
  obtain ⟨-, -, -, hselectors⟩ := Interface.foldlM_add h
  have hsorted : x.selectors = Value.sortNamed
      ((a.entries.filterMap (·.export? a.userTypes)).filterMap (·.selector)) := hselectors
  rw [hsorted, List.filterMap_filterMap, exported, List.filterMap_filter]
  congr 1
  refine List.filterMap_congr fun e _ => ?_
  rw [← Entry.isSome_export?]
  cases he : e.export? a.userTypes with
  | none => rfl
  | some c => exact (Entry.exportedAs_of_export? he).2

/-- A signature has a selector exactly if it is the signature of an entry that is
exported. -/
theorem exists_mem_selectors_iff (sig : String) :
    (∃ id, (sig, id) ∈ x.selectors) ↔
      ∃ e ∈ a.exported, e.signature? a.userTypes = some sig := by
  have hname : (∃ id, (sig, id) ∈ x.selectors) ↔ sig ∈ x.selectors.map (·.1) := by simp
  rw [hname, selectors_interface h, Value.mem_names_sortNamed, List.map_filterMap,
    List.mem_filterMap]
  simp

/-- The selector of a signature belongs to an entry that is exported. -/
theorem exists_exported_of_mem_selectors {sig id : String} (hmem : (sig, id) ∈ x.selectors) :
    ∃ e ∈ a.exported, e.signature? a.userTypes = some sig ∧ e.identifier sig = id := by
  rw [selectors_interface h] at hmem
  obtain ⟨e, he, hsig⟩ := List.mem_filterMap.mp (Value.mem_of_mem_sortNamed hmem)
  obtain ⟨s, hs, heq⟩ := Option.map_eq_some_iff.mp hsig
  obtain ⟨rfl, hid⟩ := Prod.mk.inj heq
  exact ⟨e, he, hs, hid⟩

end

/-- **The interface accounts for each entry once.**  Whatever is arranged, the work
breaks off exactly if it does at some entry, where there is no room for the type of the
first declaration that has no form.  If it does not, the events, the constructors and
the functions that are public or external take part, and nothing else does.  Those whose
declarations all have forms have one entry each, in the order in which they are written,
with an input for each parameter and an output for each thing returned, in their order.
The others have one note each, in the same order, about the first declaration that has
no form; they leave no entry and no selector behind. -/
theorem interface_accounts (a : Arrangement) :
    (a.interface? = none ↔ ∃ e ∈ a.entries, e.BreaksOff a.userTypes) ∧
    ∀ x, a.interface? = some x →
      (∀ e ∈ a.entries, (e.takesPart = true ↔ e ∈ a.exported ∨ e ∈ a.leftOut) ∧
        ¬(e ∈ a.exported ∧ e ∈ a.leftOut)) ∧
      List.Forall₂ (Entry.ExportedAs a.userTypes) a.exported (x.entries.getD []) ∧
      List.Forall₂ (Entry.LeftOutAs a.userTypes) a.leftOut x.skipped ∧
      (x.entries.getD []).length + x.skipped.length = a.entries.countP (·.takesPart) ∧
      ∀ sig, ((∃ id, (sig, id) ∈ x.selectors) ↔
          ∃ e ∈ a.exported, e.signature? a.userTypes = some sig) ∧
        ∀ id, (sig, id) ∈ x.selectors →
          ∃ e ∈ a.exported, e.signature? a.userTypes = some sig ∧ e.identifier sig = id := by
  refine ⟨interface?_eq_none_iff, fun x hx => ?_⟩
  have hexported := exportedAs_interface hx
  have hleft := leftOutAs_interface hx
  refine ⟨fun e he => ?_, hexported, hleft, ?_, fun sig =>
    ⟨exists_mem_selectors_iff hx sig, fun id h => exists_exported_of_mem_selectors hx h⟩⟩
  · rw [exported, leftOut, List.mem_filter, List.mem_filter]
    cases e.takesPart <;> cases e.isExportable a.userTypes <;> simp [he]
  · rw [← hexported.length_eq, ← hleft.length_eq, exported, leftOut, ← List.countP_eq_length_filter,
      ← List.countP_eq_length_filter,
      List.countP_eq_countP_filter_add a.entries (·.takesPart) (·.isExportable a.userTypes),
      List.countP_filter, List.countP_filter]

end Arrangement

/-! ### A record without room -/

/-- Records and functions that take them. -/
def Catalog.recordFiles : List (String × Definitions) :=
  let text (name : String) : PropertyDefinition :=
    ⟨name, .string, true, none, "identifier", [], ""⟩
  let texts (name check : String) : PropertyDefinition :=
    ⟨name, .list .string, true, none, check, [], ""⟩
  let visibility : PropertyDefinition :=
    ⟨"visibility", .string, false, some (.string "public"), "", [], ""⟩
  [("records", {
    categories := [
      ⟨"struct", "definitions", "types", true, "name", false, true⟩,
      ⟨"function", "functions", "members", true, "name", false, false⟩]
    templates := [
      { sampleTemplate "struct" [text "name", texts "fields" "fields"] with kind := "struct" },
      { sampleTemplate "function" [text "name", texts "params" "params", visibility] with
        kind := "function" }] })]

/-- The catalog of these definitions. -/
def Catalog.records : Catalog := ((build recordFiles).toOption).getD {}

theorem Catalog.build_recordFiles : build recordFiles = .ok records := rfl

/-- A record with a list that fills more than all addresses, and a function that takes
the record. -/
def Canvas.oversized : Canvas where
  instances := [
    ⟨"s", "struct", [
      ("fields", .tuple [.string "uint256[9223372036854775807] x"]), ("name", .string "S")]⟩,
    ⟨"f", "function", [("name", .string "f"), ("params", .tuple [.string "S s"])]⟩]

theorem Canvas.arrange_oversized : ∃ a, oversized.arrange .records = .ok (.ok a) ∧
    a.entries.map (fun e => (e.id, e.takesPart)) = [("s", false), ("f", true)] ∧
    a.interface? = none := by
  refine ⟨_, rfl, by decide, ?_⟩
  decide +kernel

/-- **An entry is not accounted for**, although it takes part: there is no interface. -/
theorem Arrangement.oversized_is_unaccounted : Catalog.build Catalog.recordFiles = .ok .records ∧
    ∃ a, Canvas.oversized.arrange .records = .ok (.ok a) ∧
      (∃ e ∈ a.entries, e.id = "f" ∧ e.takesPart = true) ∧ a.interface? = none := by
  obtain ⟨a, ha, hentries, hnone⟩ := Canvas.arrange_oversized
  have hmem : ("f", true) ∈ a.entries.map fun e => (e.id, e.takesPart) := by simp [hentries]
  obtain ⟨e, he, heq⟩ := List.mem_map.mp hmem
  obtain ⟨hid, hpart⟩ := Prod.mk.inj heq
  exact ⟨Catalog.build_recordFiles, a, ha, ⟨e, he, hid, hpart⟩, hnone⟩

end SolidityCanvas
