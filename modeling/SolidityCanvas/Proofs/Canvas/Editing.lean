/-
What editing does to a canvas.

An edit makes its checks, which change nothing, before its changes, which do
not fail; so an edit that fails has changed nothing (`Edit.atomic_perform`).  One
that succeeds does exactly what `Edit.Does` says and counts up the version, and it
succeeds whenever that can be done (`Edit.exists_apply`).  From this it follows
that a canvas stays whole under every edit: ids are distinct, and connections end
at instances (`Canvas.Whole`).

The main result is `edits_keep_canvas_whole`.
-/
import Mathlib.Data.Nat.Find
import SolidityCanvas.Canvas.Edit
import SolidityCanvas.Proofs.Basic
import SolidityCanvas.Proofs.Value.Named

namespace SolidityCanvas

/-! ### Edits -/

/-- An edit with its arguments. -/
inductive Edit
  /-- An instance under the first free one of some ids. -/
  | add (ids : List String) (template : String) (properties : Bag)
  | addAs (id template : String) (properties : Bag)
  | remove (id : String)
  | setProperty (id name : String) (v : Option Value)
  | connect (source target : String)
  | disconnect (source target : String)

namespace Edit

/-- The work of an edit at a time. -/
def perform (time : Timestamp) : Edit → Editing Unit
  | add ids template properties => do let _ ← Canvas.add ids template properties time
  | addAs id template properties => Canvas.addAs id template properties time
  | remove id => Canvas.remove id time
  | setProperty id name v => Canvas.setProperty id name v time
  | connect source target => Canvas.connect source target time
  | disconnect source target => Canvas.disconnect source target time

/-- What an edit comes to on a canvas, and the canvas afterwards. -/
def apply (c : Canvas) (time : Timestamp) (e : Edit) : Except EditError Unit × Canvas :=
  (e.perform time).on c

/-- What an edit that succeeds does to the instances and connections. -/
def Does (c d : Canvas) : Edit → Prop
  | add ids template properties => ∃ id ∈ ids, c.hasId id = false ∧
      d.instances = c.instances ++ [⟨id, template, properties⟩] ∧ d.connections = c.connections
  | addAs id template properties => c.hasId id = false ∧
      d.instances = c.instances ++ [⟨id, template, properties⟩] ∧ d.connections = c.connections
  | remove id => ∃ before i after, c.instances = before ++ i :: after ∧ i.id = id ∧
      (∀ x ∈ before, x.id ≠ id) ∧ d.instances = before ++ after ∧
      d.connections = c.connections.filter fun k => k.source ≠ id ∧ k.target ≠ id
  | setProperty id name v => ∃ before i after properties,
      c.instances = before ++ i :: after ∧ i.id = id ∧ (∀ x ∈ before, x.id ≠ id) ∧
      d.instances = before ++ { i with properties } :: after ∧
      properties.get? name = v.filter (!·.isNull) ∧
      (∀ n ≠ name, properties.get? n = i.properties.get? n) ∧ d.connections = c.connections
  | connect source target => c.hasId source = true ∧ c.hasId target = true ∧
      d.instances = c.instances ∧ d.connections = c.connections ++ [⟨source, target⟩]
  | disconnect source target => ∃ before after,
      c.connections = before ++ ⟨source, target⟩ :: after ∧ ⟨source, target⟩ ∉ before ∧
      d.connections = before ++ after ∧ d.instances = c.instances

end Edit

namespace Canvas

/-- Ids are distinct, and connections end at instances. -/
structure Whole (c : Canvas) : Prop where
  ids : (c.instances.map (·.id)).Nodup
  source : ∀ k ∈ c.connections, k.source ∈ c.instances.map (·.id)
  target : ∀ k ∈ c.connections, k.target ∈ c.instances.map (·.id)

/-- The canvas after an edit, whether it succeeds or fails. -/
def edited (c : Canvas) (e : Edit) (time : Timestamp) : Canvas := (e.apply c time).2

/-- The canvas after some edits, each at its time. -/
def editedAll (c : Canvas) (history : List (Edit × Timestamp)) : Canvas :=
  history.foldl (fun c (e, time) => c.edited e time) c

/-! ### Ids -/

theorem hasId_iff {c : Canvas} {id : String} :
    c.hasId id = true ↔ id ∈ c.instances.map (·.id) := by
  rw [hasId, List.any_eq_true, List.mem_map]
  exact exists_congr fun i => and_congr_right fun _ => beq_iff_eq

theorem hasId_eq_false_iff {c : Canvas} {id : String} :
    c.hasId id = false ↔ id ∉ c.instances.map (·.id) := by
  rw [← hasId_iff, Bool.not_eq_true]

/-- An id that a canvas has belongs to a first instance. -/
theorem exists_first {c : Canvas} {id : String} (h : c.hasId id = true) :
    ∃ before i after, c.instances = before ++ i :: after ∧ i.id = id ∧
      ∀ x ∈ before, x.id ≠ id := by
  obtain ⟨i, hi, rfl⟩ := List.mem_map.mp (hasId_iff.mp h)
  have hsome : (c.instances.find? (·.id == i.id)).isSome :=
    List.find?_isSome.mpr ⟨i, hi, by simp⟩
  obtain ⟨j, hj⟩ := Option.isSome_iff_exists.mp hsome
  obtain ⟨hid, before, after, heq, hbefore⟩ := List.find?_eq_some_iff_append.mp hj
  exact ⟨before, j, after, heq, by simpa using hid, fun x hx => by simpa using hbefore x hx⟩

theorem hasId_of_eq_append {c : Canvas} {before after : List Instance} {i : Instance}
    (h : c.instances = before ++ i :: after) : c.hasId i.id = true := by
  rw [hasId_iff, h]
  simp

/-! ### Properties -/

theorem updateFirst_append {id : String} {f : Instance → Instance} {i : Instance}
    {before after : List Instance} (hbefore : ∀ x ∈ before, x.id ≠ id) (hi : i.id = id) :
    updateFirst id f (before ++ i :: after) = before ++ f i :: after := by
  induction before with
  | nil => simp [updateFirst, hi]
  | cons x before ih =>
    obtain ⟨hx, hbefore⟩ := List.forall_mem_cons.mp hbefore
    rw [List.cons_append, updateFirst, if_neg (by simpa using hx), ih hbefore, List.cons_append]

/-- A property that is set has its value, and one that is cleared has none. -/
theorem get?_assign_self (b : Bag) (name : String) (v : Option Value) :
    (assign b name v).get? name = v.filter (!·.isNull) := by
  have herase : (b.erase name).get? name = none := by
    rw [Bag.get?, Bag.erase, List.lookup_eq_none_iff]
    intro e he
    have hne : e.1 ≠ name := by simpa using (List.mem_filter.mp he).2
    simpa using hne.symm
  rcases v with _ | v
  · exact herase
  · cases v with
    | null => exact herase
    | _ => exact Value.lookup_insertNamed_self

/-- The other properties stay as they are. -/
theorem get?_assign_of_ne (b : Bag) {name n : String} (v : Option Value) (h : n ≠ name) :
    (assign b name v).get? n = b.get? n := by
  have herase : (b.erase name).get? n = b.get? n := lookup_filter_of_ne h b
  rcases v with _ | v
  · exact herase
  · cases v with
    | null => exact herase
    | _ => exact Value.lookup_insertNamed_of_ne h

end Canvas

/-! ### Checks and changes -/

namespace Editing

variable {α β : Type} {work : Editing α} {next : α → Editing β}

theorem on_bind (work : Editing α) (next : α → Editing β) (c : Canvas) :
    (work >>= next).on c = match work.on c with
      | (.ok a, d) => (next a).on d
      | (.error e, d) => (.error e, d) := by
  rw [on, ExceptT.run_bind, StateT.run_bind, on]
  rcases (ExceptT.run work).run c with ⟨e | a, d⟩ <;> rfl

/-- The work changes nothing. -/
def Steady (work : Editing α) : Prop := ∀ c, (work.on c).2 = c

/-- The work does not fail. -/
def Sure (work : Editing α) : Prop := ∀ c, ∃ a d, work.on c = (.ok a, d)

/-- The work changes nothing if it fails. -/
def Atomic (work : Editing α) : Prop := ∀ c e d, work.on c = (.error e, d) → d = c

theorem sure_pure (a : α) : (pure a : Editing α).Sure := fun c => ⟨a, c, rfl⟩

theorem sure_modify (f : Canvas → Canvas) : (modify f : Editing Unit).Sure :=
  fun c => ⟨(), f c, rfl⟩

theorem Sure.bind (h : work.Sure) (hnext : ∀ a, (next a).Sure) : (work >>= next).Sure := by
  intro c
  obtain ⟨a, d, hc⟩ := h c
  rw [on_bind, hc]
  exact hnext a d

theorem Sure.atomic (h : work.Sure) : work.Atomic := by
  intro c e d hc
  obtain ⟨a, d', ha⟩ := h c
  rw [ha] at hc
  cases hc

theorem Steady.atomic (h : work.Steady) : work.Atomic := by
  intro c e d hc
  rw [← h c, hc]

/-- Checks may come before work that changes nothing if it fails. -/
theorem Steady.bind (h : work.Steady) (hnext : ∀ a, (next a).Atomic) : (work >>= next).Atomic := by
  intro c e d hc
  have hsame := h c
  rw [on_bind] at hc
  split at hc <;> rename_i heq <;> rw [heq] at hsame
  · obtain rfl : _ = c := hsame
    exact hnext _ _ e d hc
  · cases hc
    exact hsame

/-- What comes after it may not fail. -/
theorem Atomic.bind (h : work.Atomic) (hnext : ∀ a, (next a).Sure) : (work >>= next).Atomic := by
  intro c e d hc
  rw [on_bind] at hc
  split at hc
  · rename_i a d' _
    obtain ⟨b, d'', hb⟩ := hnext a d'
    rw [hb] at hc
    cases hc
  · rename_i heq
    cases hc
    exact h c e d heq

end Editing

namespace Canvas

variable {time : Timestamp}

theorem on_require (id : String) (c : Canvas) :
    (require id).on c = (if c.hasId id then .ok () else .error (.noInstance id), c) := by
  change (if !c.hasId id then throw (.noInstance id) else pure () : Editing Unit).on c = _
  cases c.hasId id <;> rfl

/-- What comes after a check is done if the instance is there. -/
theorem on_require_bind (id : String) (next : Unit → Editing Unit) (c : Canvas) :
    (require id >>= next).on c =
      if c.hasId id then (next ()).on c else (.error (.noInstance id), c) := by
  rw [Editing.on_bind, on_require]
  cases c.hasId id <;> rfl

theorem on_addAs (id template : String) (properties : Bag) (c : Canvas) :
    (addAs id template properties time).on c =
      if c.hasId id then (.error (.duplicateInstance id), c)
      else (putInstance ⟨id, template, properties⟩ >>= fun _ => touch time).on c := by
  change (if c.hasId id then throw (.duplicateInstance id) else _ : Editing Unit).on c = _
  split <;> rfl

theorem on_add (ids : List String) (template : String) (properties : Bag) (c : Canvas) :
    (add ids template properties time).on c =
      match ids.find? (!c.hasId ·) with
      | none => (.error .noFreeId, c)
      | some id =>
        (putInstance ⟨id, template, properties⟩ >>= fun _ => touch time >>= fun _ => pure id).on c := by
  change (match ids.find? (!c.hasId ·) with
    | none => throw .noFreeId
    | some id => _ : Editing String).on c = _
  split <;> rfl

theorem on_disconnect (source target : String) (c : Canvas) :
    (disconnect source target time).on c =
      if c.connections.contains ⟨source, target⟩ then
        (modify (fun c : Canvas => { c with connections := c.connections.erase ⟨source, target⟩ })
          >>= fun _ => touch time).on c
      else (.error (.noConnection source target), c) := by
  change (if !c.connections.contains ⟨source, target⟩ then throw (.noConnection source target)
    else _ : Editing Unit).on c = _
  cases c.connections.contains ⟨source, target⟩ <;> rfl

theorem steady_require (id : String) : (require id).Steady := fun c => by rw [on_require]

theorem sure_touch (time : Timestamp) : (touch time).Sure := Editing.sure_modify _

theorem sure_putInstance (i : Instance) : (putInstance i).Sure := Editing.sure_modify _

end Canvas

/-! ### What an edit does -/

namespace Edit

open Editing
open Canvas (steady_require sure_touch sure_putInstance)

variable {c d : Canvas} {e : Edit} {time : Timestamp}

/-- **An edit that fails changes nothing.**  Its checks come before its changes. -/
theorem atomic_perform (time : Timestamp) (e : Edit) : (e.perform time).Atomic := by
  cases e with
  | add ids template properties =>
    refine Atomic.bind (fun c e d h => ?_) fun _ => sure_pure ()
    rw [Canvas.on_add] at h
    split at h
    · exact (Prod.mk.inj h).2.symm
    · exact ((sure_putInstance _).bind fun _ =>
        (sure_touch time).bind fun _ => sure_pure _).atomic c e d h
  | addAs id template properties =>
    intro c e d h
    rw [perform, Canvas.on_addAs] at h
    split at h
    · exact (Prod.mk.inj h).2.symm
    · exact ((sure_putInstance _).bind fun _ => sure_touch time).atomic c e d h
  | remove id =>
    exact (steady_require id).bind fun _ =>
      ((sure_modify _).bind fun _ => (sure_modify _).bind fun _ => sure_touch time).atomic
  | setProperty id name v =>
    exact (steady_require id).bind fun _ =>
      ((sure_modify _).bind fun _ => sure_touch time).atomic
  | connect source target =>
    exact (steady_require source).bind fun _ => (steady_require target).bind fun _ =>
      ((sure_modify _).bind fun _ => sure_touch time).atomic
  | disconnect source target =>
    intro c e d h
    rw [perform, Canvas.on_disconnect] at h
    split at h
    · exact ((sure_modify _).bind fun _ => sure_touch time).atomic c e d h
    · exact (Prod.mk.inj h).2.symm

/-- An edit that succeeds notes itself. -/
structure Noted (c d : Canvas) (time : Timestamp) : Prop where
  version : d.version.toNat = (c.version.toNat + 1) % 2 ^ 64
  timestamp : d.timestamp = some time

/-- Changes to instances and connections are noted. -/
theorem noted_touch {c' : Canvas} (h : (Canvas.touch time).on c' = (.ok (), d))
    (hversion : c'.version = c.version) : Noted c d time := by
  obtain rfl : _ = d := (Prod.mk.inj h).2
  exact ⟨by rw [← hversion]; exact UInt64.toNat_add _ _, rfl⟩

theorem addAs_eq_ok {id template : String} {properties : Bag}
    (h : (Canvas.addAs id template properties time).on c = (.ok (), d)) :
    (addAs id template properties).Does c d ∧ Noted c d time := by
  rw [Canvas.on_addAs] at h
  split at h
  · cases h
  · rename_i hid
    obtain rfl : _ = d := (Prod.mk.inj h).2
    exact ⟨⟨by simpa using hid, rfl, rfl⟩, noted_touch rfl rfl⟩

/-- The id that a new instance gets is the first free one. -/
theorem add_eq_ok {ids : List String} {template id : String} {properties : Bag} :
    (Canvas.add ids template properties time).on c = (.ok id, d) ↔
      ids.find? (!c.hasId ·) = some id ∧
        (Canvas.addAs id template properties time).on c = (.ok (), d) := by
  rw [Canvas.on_add]
  split
  · rename_i hnone
    simp [hnone]
  · rename_i free hfree
    have hnew : c.hasId free = false := by simpa using List.find?_some hfree
    rw [hfree, Option.some_inj]
    constructor
    · intro h
      obtain ⟨hid, hd⟩ := Prod.mk.inj h
      obtain rfl := Except.ok.inj hid
      rw [Canvas.on_addAs, if_neg (by simp [hnew])]
      exact ⟨rfl, Prod.ext rfl hd⟩
    · rintro ⟨rfl, h⟩
      rw [Canvas.on_addAs, if_neg (by simp [hnew])] at h
      exact Prod.ext rfl (Prod.mk.inj h).2

theorem remove_eq_ok {id : String} (h : (Canvas.remove id time).on c = (.ok (), d)) :
    (remove id).Does c d ∧ Noted c d time := by
  rw [Canvas.remove, Canvas.on_require_bind] at h
  split at h
  · rename_i hid
    obtain rfl : _ = d := (Prod.mk.inj h).2
    obtain ⟨before, i, after, heq, hi, hbefore⟩ := Canvas.exists_first hid
    refine ⟨⟨before, i, after, heq, hi, hbefore, ?_, ?_⟩, noted_touch rfl rfl⟩
    · show c.instances.eraseP _ = _
      rw [heq, List.eraseP_append_right _ fun x hx => by simpa using hbefore x hx,
        List.eraseP_cons_of_pos (by simpa using hi)]
    · exact List.filter_congr fun k _ => by simp [bne, beq_eq_decide]
  · cases h

theorem setProperty_eq_ok {id name : String} {v : Option Value}
    (h : (Canvas.setProperty id name v time).on c = (.ok (), d)) :
    (setProperty id name v).Does c d ∧ Noted c d time := by
  rw [Canvas.setProperty, Canvas.on_require_bind] at h
  split at h
  · rename_i hid
    obtain rfl : _ = d := (Prod.mk.inj h).2
    obtain ⟨before, i, after, heq, hi, hbefore⟩ := Canvas.exists_first hid
    refine ⟨⟨before, i, after, Canvas.assign i.properties name v, heq, hi, hbefore, ?_,
      Canvas.get?_assign_self _ _ _, fun n hn => Canvas.get?_assign_of_ne _ _ hn, rfl⟩,
      noted_touch rfl rfl⟩
    show Canvas.updateFirst id _ c.instances = _
    rw [heq, Canvas.updateFirst_append hbefore hi]
  · cases h

theorem connect_eq_ok {source target : String}
    (h : (Canvas.connect source target time).on c = (.ok (), d)) :
    (connect source target).Does c d ∧ Noted c d time := by
  rw [Canvas.connect, Canvas.on_require_bind] at h
  split at h
  · rename_i hsource
    rw [Canvas.on_require_bind] at h
    split at h
    · rename_i htarget
      obtain rfl : _ = d := (Prod.mk.inj h).2
      exact ⟨⟨hsource, htarget, rfl, rfl⟩, noted_touch rfl rfl⟩
    · cases h
  · cases h

theorem disconnect_eq_ok {source target : String}
    (h : (Canvas.disconnect source target time).on c = (.ok (), d)) :
    (disconnect source target).Does c d ∧ Noted c d time := by
  rw [Canvas.on_disconnect] at h
  split at h
  · rename_i hmem
    obtain rfl : _ = d := (Prod.mk.inj h).2
    obtain ⟨before, after, hbefore, heq, herase⟩ :=
      List.exists_erase_eq (List.contains_iff_mem.mp hmem)
    exact ⟨⟨before, after, heq, hbefore, herase, rfl⟩, noted_touch rfl rfl⟩
  · cases h

/-- **An edit that succeeds does what it is for** and notes itself. -/
theorem does_of_apply (h : e.apply c time = (.ok (), d)) : e.Does c d ∧ Noted c d time := by
  cases e with
  | add ids template properties =>
    rw [apply, perform, Editing.on_bind] at h
    split at h
    · rename_i id d' hadd
      obtain rfl : d' = d := (Prod.mk.inj h).2
      obtain ⟨hfind, haddAs⟩ := add_eq_ok.mp hadd
      obtain ⟨hdoes, hnoted⟩ := addAs_eq_ok haddAs
      exact ⟨⟨id, List.mem_of_find?_eq_some hfind, hdoes⟩, hnoted⟩
    · cases h
  | addAs id template properties => exact addAs_eq_ok h
  | remove id => exact remove_eq_ok h
  | setProperty id name v => exact setProperty_eq_ok h
  | connect source target => exact connect_eq_ok h
  | disconnect source target => exact disconnect_eq_ok h

theorem exists_remove {id : String} (h : c.hasId id = true) (time : Timestamp) :
    ∃ d, (Canvas.remove id time).on c = (.ok (), d) := by
  rw [Canvas.remove, Canvas.on_require_bind, if_pos h]
  exact ⟨_, rfl⟩

theorem exists_disconnect {source target : String} (h : ⟨source, target⟩ ∈ c.connections)
    (time : Timestamp) : ∃ d, (Canvas.disconnect source target time).on c = (.ok (), d) := by
  rw [Canvas.on_disconnect, if_pos (List.contains_iff_mem.mpr h)]
  exact ⟨_, rfl⟩

/-- **An edit succeeds if what it is for can be done.** -/
theorem exists_apply (h : e.Does c d) (time : Timestamp) : ∃ d', e.apply c time = (.ok (), d') := by
  cases e with
  | add ids template properties =>
    obtain ⟨id, hid, hfree, -⟩ := h
    obtain ⟨first, hfirst⟩ := Option.isSome_iff_exists.mp
      (List.find?_isSome.mpr ⟨id, hid, by simp [hfree]⟩ : (ids.find? (!c.hasId ·)).isSome)
    rw [apply, perform, Editing.on_bind, Canvas.on_add, hfirst]
    exact ⟨_, rfl⟩
  | addAs id template properties =>
    rw [apply, perform, Canvas.on_addAs, h.1]
    exact ⟨_, rfl⟩
  | remove id =>
    obtain ⟨before, i, after, heq, rfl, -⟩ := h
    exact exists_remove (Canvas.hasId_of_eq_append heq) time
  | setProperty id name v =>
    obtain ⟨before, i, after, _, heq, rfl, -⟩ := h
    rw [apply, perform, Canvas.setProperty, Canvas.on_require_bind, Canvas.hasId_of_eq_append heq]
    exact ⟨_, rfl⟩
  | connect source target =>
    rw [apply, perform, Canvas.connect, Canvas.on_require_bind, h.1, if_pos rfl,
      Canvas.on_require_bind, h.2.1]
    exact ⟨_, rfl⟩
  | disconnect source target =>
    obtain ⟨before, after, heq, -⟩ := h
    exact exists_disconnect (heq ▸ List.mem_append_right _ List.mem_cons_self) time

end Edit

/-! ### Whole canvases -/

namespace Canvas

variable {c d : Canvas} {e : Edit}

theorem whole_new (time : Timestamp) : (Canvas.new time).Whole :=
  ⟨List.nodup_nil, fun _ hk => absurd hk List.not_mem_nil, fun _ hk => absurd hk List.not_mem_nil⟩

/-- A new instance under a free id leaves a canvas whole. -/
theorem Whole.addInstance {i : Instance} (h : c.Whole) (hfree : c.hasId i.id = false)
    (hinstances : d.instances = c.instances ++ [i]) (hconnections : d.connections = c.connections) :
    d.Whole := by
  have hids : d.instances.map (·.id) = c.instances.map (·.id) ++ [i.id] := by simp [hinstances]
  refine ⟨?_, fun k hk => ?_, fun k hk => ?_⟩
  · rw [hids]
    exact List.nodup_append.mpr ⟨h.ids, List.nodup_singleton _, fun a ha b hb hab =>
      hasId_eq_false_iff.mp hfree (List.mem_singleton.mp hb ▸ hab ▸ ha)⟩
  · rw [hids]
    exact List.mem_append_left _ (h.source k (hconnections ▸ hk))
  · rw [hids]
    exact List.mem_append_left _ (h.target k (hconnections ▸ hk))

/-- Without an instance and the connections that touch it a canvas is whole. -/
theorem Whole.removeInstance {before after : List Instance} {i : Instance} (h : c.Whole)
    (heq : c.instances = before ++ i :: after) (hinstances : d.instances = before ++ after)
    (hconnections : d.connections =
      c.connections.filter fun k => k.source ≠ i.id ∧ k.target ≠ i.id) : d.Whole := by
  have hkept : ∀ id ∈ c.instances.map (·.id), id ≠ i.id → id ∈ d.instances.map (·.id) := by
    intro id hid hne
    rw [heq] at hid
    rw [hinstances]
    simp only [List.map_append, List.map_cons, List.mem_append, List.mem_cons] at hid ⊢
    rcases hid with hid | hid | hid
    · exact Or.inl hid
    · exact absurd hid hne
    · exact Or.inr hid
  have hconnection : ∀ k ∈ d.connections,
      k ∈ c.connections ∧ k.source ≠ i.id ∧ k.target ≠ i.id := by
    intro k hk
    simpa [hconnections] using hk
  refine ⟨?_, fun k hk => ?_, fun k hk => ?_⟩
  · rw [hinstances]
    refine h.ids.sublist ?_
    rw [heq]
    exact ((List.Sublist.refl _).append (List.sublist_cons_self _ _)).map _
  · obtain ⟨hmem, hsource, -⟩ := hconnection k hk
    exact hkept _ (h.source k hmem) hsource
  · obtain ⟨hmem, -, htarget⟩ := hconnection k hk
    exact hkept _ (h.target k hmem) htarget

/-- What is said of a canvas that is whole depends on its ids and connections. -/
theorem Whole.of_ids (h : c.Whole) (hids : d.instances.map (·.id) = c.instances.map (·.id))
    (hconnections : ∀ k ∈ d.connections, k ∈ c.connections) : d.Whole :=
  ⟨hids ▸ h.ids, fun k hk => hids ▸ h.source k (hconnections k hk),
    fun k hk => hids ▸ h.target k (hconnections k hk)⟩

/-- **What an edit does leaves a canvas whole.** -/
theorem Whole.does (h : c.Whole) (hd : e.Does c d) : d.Whole := by
  cases e with
  | add ids template properties =>
    obtain ⟨id, -, hfree, hinstances, hconnections⟩ := hd
    exact h.addInstance hfree hinstances hconnections
  | addAs id template properties => exact h.addInstance hd.1 hd.2.1 hd.2.2
  | remove id =>
    obtain ⟨before, i, after, heq, rfl, -, hinstances, hconnections⟩ := hd
    exact h.removeInstance heq hinstances hconnections
  | setProperty id name v =>
    obtain ⟨before, i, after, properties, heq, -, -, hinstances, -, -, hconnections⟩ := hd
    exact h.of_ids (by simp [heq, hinstances]) fun k hk => hconnections ▸ hk
  | connect source target =>
    obtain ⟨hsource, htarget, hinstances, hconnections⟩ := hd
    refine ⟨hinstances ▸ h.ids, fun k hk => ?_, fun k hk => ?_⟩
    all_goals
      rw [hinstances]
      rw [hconnections] at hk
      rcases List.mem_append.mp hk with hk | hk
    · exact h.source k hk
    · obtain rfl := List.mem_singleton.mp hk
      exact hasId_iff.mp hsource
    · exact h.target k hk
    · obtain rfl := List.mem_singleton.mp hk
      exact hasId_iff.mp htarget
  | disconnect source target =>
    obtain ⟨before, after, heq, -, hconnections, hinstances⟩ := hd
    refine h.of_ids (by rw [hinstances]) fun k hk => ?_
    rw [hconnections] at hk
    rw [heq]
    exact (List.sublist_cons_self _ _).append_left _ |>.subset hk

theorem edited_of_ok {time : Timestamp} (h : e.apply c time = (.ok (), d)) :
    c.edited e time = d := by
  rw [edited, h]

theorem edited_of_error {time : Timestamp} {f : EditError} (h : e.apply c time = (.error f, d)) :
    c.edited e time = c := by
  rw [edited, h]
  exact e.atomic_perform time c f d h

/-- After an edit a canvas is the same, or what the edit made of it. -/
theorem edited_cases (c : Canvas) (e : Edit) (time : Timestamp) :
    c.edited e time = c ∨ e.Does c (c.edited e time) := by
  rcases happly : e.apply c time with ⟨f | ⟨⟩, d⟩
  · exact .inl (edited_of_error happly)
  · rw [edited_of_ok happly]
    exact .inr (Edit.does_of_apply happly).1

theorem Whole.edited (h : c.Whole) (e : Edit) (time : Timestamp) : (c.edited e time).Whole := by
  rcases c.edited_cases e time with hsame | hdoes
  · rwa [hsame]
  · exact h.does hdoes

/-- A whole canvas is whole after any number of edits. -/
theorem Whole.editedAll (history : List (Edit × Timestamp)) :
    ∀ {c : Canvas}, c.Whole → (c.editedAll history).Whole := by
  induction history with
  | nil => exact fun h => h
  | cons step history ih => exact fun h => ih (h.edited step.1 step.2)

/-- Of ids that come one after another, a new instance gets the first that is
free, however many are asked for beyond it. -/
theorem exists_add (c : Canvas) (ids : Nat → String) (template : String) (properties : Bag)
    (time : Timestamp) (h : ∃ n, c.hasId (ids n) = false) :
    ∃ k d, c.hasId (ids k) = false ∧ (∀ j < k, c.hasId (ids j) = true) ∧
      ∀ m, k < m →
        (add ((List.range m).map ids) template properties time).on c = (.ok (ids k), d) := by
  classical
  let k := Nat.find h
  have hfree : c.hasId (ids k) = false := Nat.find_spec h
  have htaken : ∀ j < k, c.hasId (ids j) = true := fun j hj => by simpa using Nat.find_min h hj
  obtain ⟨d, hd⟩ := Edit.exists_apply (e := .addAs (ids k) template properties)
    (d := { c with instances := c.instances ++ [⟨ids k, template, properties⟩] })
    ⟨hfree, rfl, rfl⟩ time
  refine ⟨k, d, hfree, htaken, fun m hm => Edit.add_eq_ok.mpr ⟨?_, hd⟩⟩
  have hfirst : (List.range m).find? (fun n => !c.hasId (ids n)) = some k := by
    rw [List.find?_range_eq_some]
    exact ⟨by simp [hfree], List.mem_range.mpr hm, fun j hj => by simp [htaken j hj]⟩
  rw [List.find?_map]
  exact congrArg (Option.map ids) hfirst

/-! ### Main result -/

/-- **Editing keeps a canvas whole.**  The new canvas is whole, each edit keeps
a canvas whole, and so does every history.  An edit that fails leaves the canvas
as it was; one that succeeds does what it is for and counts up the version, and it
succeeds if that can be done.  A generator of ids that comes to a free one at some
time gives a new instance the first free one. -/
theorem edits_keep_canvas_whole :
    (∀ time, (Canvas.new time).Whole) ∧
    (∀ (c : Canvas) e time, c.Whole → (c.edited e time).Whole) ∧
    (∀ time history, ((Canvas.new time).editedAll history).Whole) ∧
    (∀ (c : Canvas) e time f d, Edit.apply c time e = (.error f, d) → d = c) ∧
    (∀ (c : Canvas) e time d, Edit.apply c time e = (.ok (), d) →
      e.Does c d ∧ d.version.toNat = (c.version.toNat + 1) % 2 ^ 64 ∧
        d.timestamp = some time) ∧
    (∀ (c d : Canvas) e time, e.Does c d → ∃ d', Edit.apply c time e = (.ok (), d')) ∧
    (∀ (c : Canvas) (ids : Nat → String) template properties time,
      (∃ n, c.hasId (ids n) = false) →
        ∃ k d, c.hasId (ids k) = false ∧ (∀ j < k, c.hasId (ids j) = true) ∧
          ∀ m, k < m →
            (add ((List.range m).map ids) template properties time).on c =
              (.ok (ids k), d)) := by
  refine ⟨whole_new, fun c e time h => h.edited e time,
    fun time history => (whole_new time).editedAll history,
    fun c e time f d h => e.atomic_perform time c f d h, fun c e time d h => ?_,
    fun c d e time h => Edit.exists_apply h time, exists_add⟩
  obtain ⟨hdoes, hnoted⟩ := Edit.does_of_apply h
  exact ⟨hdoes, hnoted.version, hnoted.timestamp⟩

/-- Two instances are connected, and the first one is removed. -/
def sampleHistory : List (Edit × Timestamp) := [
  (.addAs "a" "event" [], default), (.addAs "b" "modifier" [], default),
  (.connect "a" "b", default), (.remove "a", default)]

/-- They cannot be connected again after that: the canvas stays as it is. -/
theorem sampleHistory_keeps_whole : ∃ c : Canvas, (new default).editedAll sampleHistory = c ∧
    c.Whole ∧ c.instances = [⟨"b", "modifier", []⟩] ∧ c.connections = [] ∧ c.version = 4 ∧
    Edit.apply c default (.connect "b" "a") = (.error (.noInstance "a"), c) := by
  obtain ⟨-, -, hhistory, hfails, -⟩ := edits_keep_canvas_whole
  refine ⟨_, rfl, hhistory default sampleHistory, rfl, rfl, rfl, ?_⟩
  generalize hc : (new default).editedAll sampleHistory = c
  obtain ⟨d, hd⟩ : ∃ d, Edit.apply c default (.connect "b" "a") = (.error (.noInstance "a"), d) := by
    rw [← hc]
    exact ⟨_, rfl⟩
  rw [hd, hfails _ _ _ _ _ hd]

end Canvas

end SolidityCanvas
