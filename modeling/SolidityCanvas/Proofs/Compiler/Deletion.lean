/-
What deleting does to a canvas that is written.

With the standard catalog a canvas that is written is still accepted when instances or
connections are deleted: what is left is a part of it (`Canvas.IsPartOf`), a part of an
acceptable canvas is acceptable, and what is acceptable is written.  Only the work on its
interface may break off.  For that a name has to stand for another type than before,
since the forms of declarations depend on nothing but what names stand for
(`marshal_congr`), so a declaration of a type has to be among what was deleted.

* `Canvas.agrees_of_isPartOf`: in a part that keeps the declarations of types, names stand
  for what they stand for on the canvas;
* `Compiler.part_is_written`: any catalog of regular templates that shares the names of
  types writes the parts of what it writes, unless the work breaks off;
* `Compiler.written_after_deletion`: each deletion succeeds, and what the standard catalog
  makes of what it leaves.
-/
import SolidityCanvas.Proofs.Catalog.Standard

namespace SolidityCanvas

variable {catalog : Catalog} {canvas part : Canvas} {header : Header} {capacity : Nat}
  {r : CompileResult}

/-! ### What names stand for -/

/-- Names stand for the same declared types. -/
structure UserTypes.Agrees (u v : UserTypes) : Prop where
  isEnum : ∀ name, u.isEnum name = v.isEnum name
  fields? : ∀ name, u.fields? name = v.fields? name

section

variable {u v : UserTypes} {e f : Entry}

/-- The form of a parameter depends on what names stand for. -/
theorem marshal_congr (h : u.Agrees v) (levels : Nat) (name type : String) :
    marshal u levels name type = marshal v levels name type := by
  induction levels generalizing name type with
  | zero => rfl
  | succ levels ih =>
    rw [marshal, marshal]
    simp only [h.isEnum, h.fields?, ih]

theorem marshalParameter_congr (h : u.Agrees v) (indexable : Bool) (d : String) :
    marshalParameter u indexable d = marshalParameter v indexable d := by
  rw [marshalParameter, marshalParameter]
  simp only [marshal_congr h]

/-- Whether the work breaks off at an entry depends on its component and on what names
stand for. -/
theorem Entry.breaksOff_congr (h : u.Agrees v) (hc : e.component = f.component) :
    e.BreaksOff u ↔ f.BreaksOff v := by
  obtain ⟨component, links⟩ := e
  obtain rfl : component = f.component := hc
  simp only [BreaksOff, FailsAt, marshalParameter_congr h]
  rfl

end

namespace Canvas

section

variable {a : Arrangement} {k : Component} (hacceptable : canvas.Acceptable catalog)
  (ha : canvas.arrange catalog = .ok (.ok a))

include hacceptable ha

/-- The entries of an arrangement have the components of the canvas. -/
theorem exists_entry_iff_holds : (∃ e ∈ a.entries, e.component = k) ↔ canvas.Holds catalog k := by
  constructor
  · rintro ⟨e, he, rfl⟩
    exact Arrangement.holds_component ha he
  · intro hk
    obtain ⟨ks, fs, us, hks, -, -, -, hzones, hblocks⟩ := blocks_of_arrange ha
    have hmem := (mem_components_iff_holds hks hacceptable.ids_nodup).mpr hk
    have hzone : k.template.category.zone ∈ a.sections.map (·.1) := hzones ▸ Section.mem_all _
    obtain ⟨s, hs, hzone⟩ := List.mem_map.mp hzone
    have he := ((hblocks s hs).mem_iff (entryOf ks us k)).mpr
      ⟨List.mem_map_of_mem hmem, hzone.symm⟩
    exact ⟨entryOf ks us k, List.mem_flatMap.mpr ⟨s, hs, he⟩, rfl⟩

/-- The enumerations that names stand for. -/
theorem isEnum_userTypes_iff {name : String} : a.userTypes.isEnum name = true ↔
    ∃ k, canvas.Holds catalog k ∧ k.template.kind = .enumeration ∧
      k.properties.text "name" = name := by
  rw [Arrangement.userTypes, UserTypes.isEnum_ofEntries]
  constructor
  · rintro ⟨e, he, hkind, hname⟩
    exact ⟨e.component, Arrangement.holds_component ha he, beq_iff_eq.mp hkind, hname⟩
  · rintro ⟨k, hk, hkind, hname⟩
    obtain ⟨e, he, rfl⟩ := (exists_entry_iff_holds hacceptable ha).mpr hk
    exact ⟨e, he, beq_iff_eq.mpr hkind, hname⟩

/-- The records that names stand for, where no two have one name. -/
theorem fields?_userTypes_eq_some_iff (hnames : catalog.NamesByName) {name : String}
    {fields : List String} : a.userTypes.fields? name = some fields ↔
    ∃ k, canvas.Holds catalog k ∧ k.template.kind = .record ∧
      k.properties.text "name" = name ∧ k.properties.texts "fields" = fields := by
  rw [Arrangement.userTypes, UserTypes.fields?_ofEntries, Option.map_eq_some_iff]
  constructor
  · rintro ⟨e, hlast, hfields⟩
    obtain ⟨he, hcheck⟩ := List.mem_filter.mp (List.mem_of_getLast? hlast)
    obtain ⟨hkind, hname⟩ := Bool.and_eq_true_iff.mp hcheck
    exact ⟨e.component, Arrangement.holds_component ha he, beq_iff_eq.mp hkind,
      beq_iff_eq.mp hname, hfields⟩
  · rintro ⟨k, hk, hkind, rfl, rfl⟩
    obtain ⟨e, he, rfl⟩ := (exists_entry_iff_holds hacceptable ha).mpr hk
    have hgiven : ∀ f ∈ a.entries, f.component.template.kind = .record →
        f.givenName = f.component.name := fun f hf hkind =>
      Arrangement.givenName_eq hnames ha hf (by simp [hkind])
    refine ⟨e, lastRecord?_eq_some he (beq_iff_eq.mpr hkind) fun f hf hkind' hname => ?_, rfl⟩
    have hkind' : f.component.template.kind = .record := beq_iff_eq.mp hkind'
    rw [hgiven f hf hkind', hgiven e he hkind] at hname
    exact Arrangement.eq_of_name hnames hacceptable ha hf he (by simp [hkind']) (by simp [hkind])
      hname

end

/-- The part has all instances that declare types. -/
def KeepsTypes (part canvas : Canvas) (catalog : Catalog) : Prop :=
  ∀ i ∈ canvas.instances, ∀ t, catalog.template? i.template = some t →
    t.kind ∈ [InterfaceKind.record, .enumeration] → i ∈ part.instances

section

variable (hnames : catalog.NamesByName) (hacceptable : canvas.Acceptable catalog)
  (hacceptable' : part.Acceptable catalog) (hpart : part.IsPartOf canvas)
  (hkeeps : part.KeepsTypes canvas catalog)

include hnames hacceptable hacceptable' hpart hkeeps

/-- **Names stand for what they stand for on the canvas**, if the part has the instances
that declare types. -/
theorem agrees_of_isPartOf {a b : Arrangement} (ha : canvas.arrange catalog = .ok (.ok a))
    (hb : part.arrange catalog = .ok (.ok b)) : b.userTypes.Agrees a.userTypes := by
  have hholds : ∀ k : Component, k.template.kind ∈ [InterfaceKind.record, .enumeration] →
      (part.Holds catalog k ↔ canvas.Holds catalog k) := by
    refine fun k hkind => ⟨fun hk => hk.of_isPartOf hpart, ?_⟩
    rintro ⟨i, hi, hk⟩
    obtain ⟨t, ht, rfl⟩ := componentOf?_eq_some.mp hk
    exact ⟨i, hkeeps i hi t ht hkind, hk⟩
  constructor
  · intro name
    rw [Bool.eq_iff_iff, isEnum_userTypes_iff hacceptable' hb, isEnum_userTypes_iff hacceptable ha]
    refine exists_congr fun k => and_congr_left fun hk => hholds k ?_
    simp [hk.1]
  · intro name
    ext fields
    rw [fields?_userTypes_eq_some_iff hacceptable' hb hnames,
      fields?_userTypes_eq_some_iff hacceptable ha hnames]
    refine exists_congr fun k => and_congr_left fun hk => hholds k ?_
    simp [hk.1]

/-- **The work does not break off for the part** if it does not for the canvas. -/
theorem not_breaksOff_of_isPartOf (hknown : canvas.Known catalog)
    (hgoes : ¬canvas.BreaksOff catalog) : ¬part.BreaksOff catalog := by
  rintro ⟨-, b, hb, e, he, hbreaks⟩
  obtain ⟨verdict, hverdict⟩ := exists_arrange hknown
  obtain ⟨_, _, _, ⟨-, -, sections, rfl, -⟩ | ⟨hnot, -⟩⟩ := arrange_eq_ok hverdict
  · obtain ⟨f, hf, hcomponent⟩ := (exists_entry_iff_holds hacceptable hverdict).mpr
      ((Arrangement.holds_component hb he).of_isPartOf hpart)
    have hagrees := agrees_of_isPartOf hnames hacceptable hacceptable' hpart hkeeps hverdict hb
    exact hgoes ⟨hacceptable, _, hverdict, f, hf,
      (Entry.breaksOff_congr hagrees hcomponent.symm).mp hbreaks⟩
  · exact hnot ⟨hacceptable.unentangled, hacceptable.respects⟩

end

section

variable {c left : Canvas}

/-- A canvas without an instance that declares no type keeps the types. -/
theorem keepsTypes_of_remove {i : Instance} (hwhole : c.Whole) (hi : i ∈ c.instances)
    (hdoes : (Edit.remove i.id).Does c left) (hplain : ∀ t, catalog.template? i.template = some t →
      t.kind ∉ [InterfaceKind.record, .enumeration]) : left.KeepsTypes c catalog := by
  intro l hl t ht htype
  obtain ⟨before, j, after, heq, hid, -, hinstances, -⟩ := hdoes
  rw [hinstances]
  rw [heq, List.mem_append, List.mem_cons] at hl
  rcases hl with hl | rfl | hl
  · exact List.mem_append_left _ hl
  · -- this is the instance that is gone
    have hsame : l = i := List.inj_on_of_nodup_map hwhole.ids (heq ▸ by simp) hi hid
    exact absurd htype (hplain t (hsame ▸ ht))
  · exact List.mem_append_right _ hl

/-- A canvas without a connection keeps the types. -/
theorem keepsTypes_of_disconnect {source target : String}
    (hdoes : (Edit.disconnect source target).Does c left) : left.KeepsTypes c catalog := by
  obtain ⟨_, _, -, -, -, hinstances⟩ := hdoes
  intro l hl _ _ _
  rwa [hinstances]

end

/-- A part of a known canvas is known, if no two instances have one id. -/
theorem Known.of_isPartOf (hknown : canvas.Known catalog)
    (hnd : (canvas.instances.map (·.id)).Nodup) (h : part.IsPartOf canvas) :
    part.Known catalog := fun i hi _ =>
  hknown i (h.instances.subset hi)
    ((find?_name_eq_some hnd).mpr ⟨h.instances.subset hi, rfl⟩)

end Canvas

/-! ### Parts of what is written -/

namespace Compiler

/-- A canvas that is written is known and acceptable, and has an interface. -/
theorem acceptable_of_emitted (hcategories : catalog.CategoriesAgree)
    (hr : ((new catalog capacity).compile canvas header false).1 = .ok r)
    (hemitted : r.status = .emitted) :
    canvas.Known catalog ∧ canvas.Acceptable catalog ∧ ¬canvas.BreaksOff catalog := by
  refine ⟨?_, ?_, ?_⟩
  · rw [compile_new] at hr
    obtain ⟨findings, hvalidate, -⟩ := run_eq_ok hr
    obtain ⟨ks, bound, hks, -⟩ := Canvas.validate_eq_ok hvalidate
    exact Canvas.known_of_components hks
  · rcases verdict_cases hcategories hr with ⟨h, -⟩ | ⟨-, h⟩
    · exact h
    · exact absurd (h.symm.trans hemitted) (by decide)
  · obtain ⟨a, x, ha, hx, -⟩ := interface_of_emitted hr hemitted
    rw [Canvas.breaksOff_iff ha, hx]
    simp

/-- The canvas is written without errors, unless the work on its interface breaks off;
then there is no result. -/
structure WritesUnlessBroken (catalog : Catalog) (capacity : Nat) (canvas : Canvas)
    (header : Header) : Prop where
  written : ¬canvas.BreaksOff catalog →
    ∃ r, ((new catalog capacity).compile canvas header false).1 = .ok r ∧
      r.status = .emitted ∧ Diagnostic.hasErrors r.findings = false
  broken : canvas.BreaksOff catalog →
    ((new catalog capacity).compile canvas header false).1 = .error .broken

/-- **A whole part of a canvas that is written is written**, unless the work on its
interface breaks off, which it does not if the part has the declarations of types. -/
theorem part_is_written (hcategories : catalog.CategoriesAgree)
    (hregular : catalog.isRegular = true) (htypes : catalog.sharesTypeNames = true)
    (hnames : catalog.NamesByName)
    (hr : ((new catalog capacity).compile canvas header false).1 = .ok r)
    (hemitted : r.status = .emitted) (hpart : part.IsPartOf canvas) (hwhole : part.Whole)
    (capacity' : Nat) (header' : Header) :
    WritesUnlessBroken catalog capacity' part header' ∧
      (part.KeepsTypes canvas catalog → ¬part.BreaksOff catalog) := by
  obtain ⟨hknown, hacceptable, hgoes⟩ := acceptable_of_emitted hcategories hr hemitted
  have hknown' := hknown.of_isPartOf hacceptable.ids_nodup hpart
  have hacceptable' := hacceptable.of_isPartOf htypes hpart hwhole
  exact ⟨⟨exists_emitted hcategories hregular hknown' capacity' header' hacceptable',
      compile_eq_broken hcategories hregular hknown' capacity' header'⟩,
    fun hkeeps => Canvas.not_breaksOff_of_isPartOf hnames hacceptable hacceptable' hpart hkeeps
      hknown hgoes⟩

/-- **What deleting does to a canvas.**  The standard catalog writes a canvas, which an
editor takes up.  Removing an instance that it has succeeds, and so does removing a
connection that it has.  What is left is written, without errors, by a compiler of any
capacity and with any header, unless the work on its interface breaks off; and so is what
any number of deletions leave.  The work does not break off if all instances that declare
types are left, in particular if a connection was removed. -/
theorem written_after_deletion
    (hr : ((new Catalog.standard capacity).compile canvas header false).1 = .ok r)
    (hemitted : r.status = .emitted) (opened time : Timestamp) (capacity' : Nat)
    (header' : Header) :
    (∀ i ∈ canvas.instances, ∃ left,
      (Canvas.remove i.id time).on (canvas.reopen opened) = (.ok (), left) ∧
      WritesUnlessBroken Catalog.standard capacity' left header' ∧
      ((∀ t, Catalog.standard.template? i.template = some t →
        t.kind ∉ [InterfaceKind.record, .enumeration]) → ¬left.BreaksOff Catalog.standard)) ∧
    (∀ k ∈ canvas.connections, ∃ left,
      (Canvas.disconnect k.source k.target time).on (canvas.reopen opened) = (.ok (), left) ∧
      ∃ r', ((new Catalog.standard capacity').compile left header' false).1 = .ok r' ∧
        r'.status = .emitted ∧ Diagnostic.hasErrors r'.findings = false) ∧
    ∀ history : List (Edit × Timestamp), (∀ s ∈ history, s.1.Deletes) →
      WritesUnlessBroken Catalog.standard capacity'
          ((canvas.reopen opened).editedAll history) header' ∧
        (((canvas.reopen opened).editedAll history).KeepsTypes canvas Catalog.standard →
          ¬((canvas.reopen opened).editedAll history).BreaksOff Catalog.standard) := by
  obtain ⟨-, hpasses⟩ := Catalog.passesStandard_standard
  have hwhole := (acceptable_of_emitted Catalog.categoriesAgree_standard hr hemitted).2.1.whole
  have hparts := fun {part : Canvas} (hpart : part.IsPartOf canvas) (hwhole : part.Whole) =>
    part_is_written Catalog.categoriesAgree_standard hpasses.regular hpasses.sharesTypeNames
      hpasses.namesByName hr hemitted hpart hwhole capacity' header'
  -- The time at which an editor takes the canvas up is no part of what it holds.
  have hopened : (canvas.reopen opened).IsPartOf canvas ∧ (canvas.reopen opened).Whole :=
    ⟨⟨.refl _, fun _ h => h⟩, ⟨hwhole.ids, hwhole.source, hwhole.target⟩⟩
  have hdeleted : ∀ {e : Edit} {left : Canvas}, e.Deletes → e.Does (canvas.reopen opened) left →
      left.IsPartOf canvas ∧ left.Whole := fun he hdoes =>
    ⟨(Canvas.isPartOf_of_deletes he hdoes).trans hopened.1, hopened.2.does hdoes⟩
  refine ⟨fun i hi => ?_, fun k hk => ?_, fun history hhistory => ?_⟩
  · obtain ⟨left, hleft⟩ := Edit.exists_remove (c := canvas.reopen opened)
      (Canvas.hasId_iff.mpr (List.mem_map_of_mem hi)) time
    have hdoes := (Edit.remove_eq_ok hleft).1
    obtain ⟨hpart, hwhole'⟩ := hdeleted (.remove i.id) hdoes
    obtain ⟨hwrites, hkeeps⟩ := hparts hpart hwhole'
    refine ⟨left, hleft, hwrites, fun hplain => hkeeps ?_⟩
    show left.KeepsTypes (canvas.reopen opened) Catalog.standard
    exact Canvas.keepsTypes_of_remove hopened.2 hi hdoes hplain
  · obtain ⟨left, hleft⟩ := Edit.exists_disconnect (c := canvas.reopen opened) hk time
    have hdoes := (Edit.disconnect_eq_ok hleft).1
    obtain ⟨hpart, hwhole'⟩ := hdeleted (.disconnect k.source k.target) hdoes
    obtain ⟨hwrites, hkeeps⟩ := hparts hpart hwhole'
    refine ⟨left, hleft, hwrites.written (hkeeps ?_)⟩
    show left.KeepsTypes (canvas.reopen opened) Catalog.standard
    exact Canvas.keepsTypes_of_disconnect hdoes
  · exact hparts ((Canvas.isPartOf_editedAll history _ hhistory).trans hopened.1)
      (hopened.2.editedAll history)

/-- A function is written without its guard, and without the connection to it. -/
theorem written_without_guard : ∃ r,
    ((new Catalog.standard 1).compile .guarded {} false).1 = .ok r ∧ r.status = .emitted ∧
    (∃ left r', (Canvas.remove "m" default).on (Canvas.guarded.reopen default) = (.ok (), left) ∧
      ((new Catalog.standard 1).compile left {} false).1 = .ok r' ∧ r'.status = .emitted) ∧
    ∃ left r', (Canvas.disconnect "m" "f" default).on (Canvas.guarded.reopen default) =
        (.ok (), left) ∧
      ((new Catalog.standard 1).compile left {} false).1 = .ok r' ∧ r'.status = .emitted := by
  obtain ⟨-, hpasses⟩ := Catalog.passesStandard_standard
  obtain ⟨r, hr, hemitted, -⟩ := exists_emitted_of_isSound hpasses.guarded 1 {}
  obtain ⟨hremove, hdisconnect, -⟩ := written_after_deletion hr hemitted default default 1 {}
  obtain ⟨left, hleft, hwrites, hgoes⟩ :=
    hremove ⟨"m", "modifier", [("name", .string "locked")]⟩ List.mem_cons_self
  obtain ⟨r₁, hr₁, hemitted₁, -⟩ := hwrites.written (hgoes fun t ht htype => by
    have hplain := Option.all_eq_true _ _ |>.mp hpasses.guards t ht
    rw [List.contains_iff_mem.mpr htype] at hplain
    cases hplain)
  obtain ⟨free, hfree, r₂, hr₂, hemitted₂, -⟩ := hdisconnect ⟨"m", "f"⟩ List.mem_cons_self
  exact ⟨r, hr, hemitted, ⟨left, r₁, hleft, hr₁, hemitted₁⟩, free, r₂, hfree, hr₂, hemitted₂⟩

/-- **Deleting breaks a canvas.**  It is written, and without one of its instances there is
no result. -/
theorem shadowed_is_broken : ∃ r left,
    ((new Catalog.standard 1).compile .shadowed {} false).1 = .ok r ∧ r.status = .emitted ∧
    (Canvas.remove "b" default).on (Canvas.shadowed.reopen default) = (.ok (), left) ∧
    ¬∃ r', ((new Catalog.standard 1).compile left {} false).1 = .ok r' := by
  obtain ⟨-, hpasses⟩ := Catalog.passesStandard_standard
  obtain ⟨r, hr, hemitted, -⟩ := exists_emitted_of_isSound hpasses.shadowed 1 {}
  obtain ⟨⟨ks, fs, hks⟩, hbreaks⟩ :=
    Canvas.breaksOff_of_isBroken Catalog.categoriesAgree_standard hpasses.unshadowed
  have hbroken := compile_eq_broken Catalog.categoriesAgree_standard hpasses.regular
    (Canvas.known_of_components hks) 1 {} hbreaks
  refine ⟨r, .unshadowed, hr, hemitted, rfl, ?_⟩
  rintro ⟨r', hr'⟩
  cases hbroken.symm.trans hr'

end Compiler

end SolidityCanvas
