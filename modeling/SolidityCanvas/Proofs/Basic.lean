/-
Computations that can fail, look-ups by name, and lists that correspond.
-/
import Mathlib.Data.List.Basic
import Mathlib.Data.List.Forall2
import Mathlib.Data.List.Nodup

namespace SolidityCanvas

/-- A computation that goes well has steps that go well. -/
theorem except_bind_eq_ok {ε α β : Type} {x : Except ε α} {f : α → Except ε β} {b : β} :
    (x >>= f) = .ok b ↔ ∃ a, x = .ok a ∧ f a = .ok b := by
  cases x with
  | error e =>
    constructor
    · intro h
      cases h
    · rintro ⟨_, h, _⟩
      cases h
  | ok a =>
    constructor
    · exact fun h => ⟨a, rfl, h⟩
    · rintro ⟨_, h, h'⟩
      cases h
      exact h'

/-- A computation that fails has a step that fails. -/
theorem except_bind_eq_error {ε α β : Type} {x : Except ε α} {f : α → Except ε β} {e : ε} :
    (x >>= f) = .error e ↔ x = .error e ∨ ∃ a, x = .ok a ∧ f a = .error e := by
  cases x with
  | error d =>
    constructor
    · intro h
      cases h
      exact .inl rfl
    · rintro (h | ⟨_, h, _⟩)
      · cases h
        rfl
      · cases h
  | ok a =>
    constructor
    · exact fun h => .inr ⟨a, rfl, h⟩
    · rintro (h | ⟨_, h, h'⟩)
      · cases h
      · cases h
        exact h'

/-- A step that always goes well adds no failure. -/
theorem except_bind_eq_error_iff {ε α β : Type} {x : Except ε α} {f : α → Except ε β} {e : ε}
    (hf : ∀ a, ∃ b, f a = .ok b) : (x >>= f) = .error e ↔ x = .error e := by
  rw [except_bind_eq_error, or_iff_left_iff_imp]
  rintro ⟨a, -, he⟩
  obtain ⟨b, hb⟩ := hf a
  rw [hb] at he
  cases he

/-- A step that tells results apart, and always goes well, tells computations apart. -/
theorem except_bind_ok_inj {ε α β : Type} {f : α → β} (hf : f.Injective) {x y : Except ε α}
    (h : (do let a ← x; return f a) = do let a ← y; return f a) : x = y := by
  cases x <;> cases y <;> simp_all [hf.eq_iff]

/-- A computation goes well if its steps do. -/
theorem exists_bind_ok {ε α β : Type} {x : Except ε α} {f : α → Except ε β} {a : α}
    (hx : x = .ok a) (hf : ∃ b, f a = .ok b) : ∃ b, (x >>= f) = .ok b := by
  obtain ⟨b, hb⟩ := hf
  exact ⟨b, except_bind_eq_ok.mpr ⟨a, hx, hb⟩⟩

/-- A row of computations goes well if all of them do. -/
theorem exists_mapM_ok {ε α β : Type} {f : α → Except ε β} : ∀ {l : List α},
    (∀ a ∈ l, ∃ b, f a = .ok b) → ∃ bs, l.mapM f = .ok bs := by
  intro l
  induction l with
  | nil => exact fun _ => ⟨[], rfl⟩
  | cons a l ih =>
    intro h
    obtain ⟨⟨b, hb⟩, hl⟩ := List.forall_mem_cons.mp h
    obtain ⟨bs, hbs⟩ := ih hl
    rw [List.mapM_cons]
    exact exists_bind_ok hb (exists_bind_ok hbs ⟨b :: bs, rfl⟩)

/-- Naming an error differently changes no result. -/
theorem mapError_eq_ok {ε δ α : Type} {x : Except ε α} {f : ε → δ} {a : α} :
    x.mapError f = .ok a ↔ x = .ok a := by
  cases x <;> simp [Except.mapError]

theorem mapError_eq_error {ε δ α : Type} {x : Except ε α} {f : ε → δ} {d : δ} :
    x.mapError f = .error d ↔ ∃ e, x = .error e ∧ f e = d := by
  cases x <;> simp [Except.mapError]

theorem mapM_congr {m : Type → Type} [Monad m] [LawfulMonad m] {α β : Type} {f g : α → m β} :
    ∀ {l : List α}, (∀ a ∈ l, f a = g a) → l.mapM f = l.mapM g := by
  intro l
  induction l with
  | nil => exact fun _ => rfl
  | cons a l ih =>
    intro h
    rw [List.mapM_cons, List.mapM_cons, h a List.mem_cons_self,
      ih fun b hb => h b (List.mem_cons_of_mem _ hb)]

/-- Where no two members have one name, a look-up by name finds the member
that has it. -/
theorem find?_name_eq_some {α : Type} {name : α → String} {l : List α}
    (hnd : (l.map name).Nodup) {a : α} {n : String} :
    l.find? (fun x => name x == n) = some a ↔ a ∈ l ∧ name a = n := by
  constructor
  · intro h
    exact ⟨List.mem_of_find?_eq_some h, by simpa using List.find?_some h⟩
  · rintro ⟨ha, rfl⟩
    have hsome : (l.find? fun x => name x == name a).isSome := by
      rw [List.find?_isSome]
      exact ⟨a, ha, by simp⟩
    obtain ⟨b, hb⟩ := Option.isSome_iff_exists.mp hsome
    have hname : name b = name a := by simpa using List.find?_some hb
    rw [hb, List.inj_on_of_nodup_map hnd (List.mem_of_find?_eq_some hb) ha hname]

theorem mem_of_lookup {κ α : Type} [BEq κ] [LawfulBEq κ] {key : κ} {a : α} {l : List (κ × α)}
    (h : l.lookup key = some a) : (key, a) ∈ l := by
  obtain ⟨before, after, rfl, -⟩ := List.lookup_eq_some_iff.mp h
  exact List.mem_append_right _ List.mem_cons_self

/-- Where no two entries have one key, each is found by its key. -/
theorem lookup_of_mem {κ α : Type} [BEq κ] [LawfulBEq κ] {key : κ} {a : α} {l : List (κ × α)}
    (hnd : (l.map (·.1)).Nodup) (h : (key, a) ∈ l) : l.lookup key = some a := by
  induction l with
  | nil => exact absurd h List.not_mem_nil
  | cons e l ih =>
    obtain ⟨hnew, hnd⟩ := List.nodup_cons.mp hnd
    rcases List.mem_cons.mp h with rfl | h
    · exact List.lookup_cons_self
    · have hne : key ≠ e.1 := by
        rintro rfl
        exact hnew (List.mem_map.mpr ⟨_, h, rfl⟩)
      rw [List.lookup_cons, beq_eq_false_iff_ne.mpr hne]
      exact ih hnd h

/-- What is found in a list of keys, each with its value. -/
theorem lookup_map_self {κ α : Type} [BEq κ] [LawfulBEq κ] [DecidableEq κ] (ks : List κ)
    (f : κ → α) (key : κ) :
    (ks.map fun k => (k, f k)).lookup key = if key ∈ ks then some (f key) else none := by
  induction ks with
  | nil => rfl
  | cons k ks ih =>
    rw [List.map_cons, List.lookup_cons, ih]
    by_cases hk : key = k
    · simp [hk]
    · simp [hk, beq_eq_false_iff_ne.mpr hk]

/-- Dropping the entries of one key leaves the others as they are. -/
theorem lookup_filter_of_ne {κ α : Type} [BEq κ] [LawfulBEq κ] {key other : κ}
    (h : other ≠ key) (l : List (κ × α)) :
    (l.filter fun e => !(e.1 == key)).lookup other = l.lookup other := by
  induction l with
  | nil => rfl
  | cons e rest ih =>
    obtain ⟨k, v⟩ := e
    by_cases hk : k = key
    · have hother : (other == k) = false := beq_eq_false_iff_ne.mpr (hk ▸ h)
      rw [List.filter_cons_of_neg (by simp [hk]), ih, List.lookup_cons, hother]
    · rw [List.filter_cons_of_pos (by simpa using hk), List.lookup_cons, List.lookup_cons, ih]

theorem forall_mem_ite {α : Type} {p : Prop} [Decidable p] {q : α → Prop} {l m : List α}
    (hl : ∀ x ∈ l, q x) (hm : ∀ x ∈ m, q x) : ∀ x ∈ (if p then l else m), q x := by
  split
  · exact hl
  · exact hm

/-! ### Lists that correspond -/

section forall₂

variable {α β : Type} {r : α → β → Prop}

theorem exists_mem_of_forall₂ {l : List α} {js : List β} (h : List.Forall₂ r l js) :
    ∀ j ∈ js, ∃ a ∈ l, r a j := by
  induction h with
  | nil => exact fun _ hj => absurd hj List.not_mem_nil
  | @cons a j l js haj _ ih =>
    intro k hk
    rcases List.mem_cons.mp hk with rfl | hk
    · exact ⟨a, List.mem_cons_self, haj⟩
    · obtain ⟨b, hb, hbk⟩ := ih k hk
      exact ⟨b, List.mem_cons_of_mem _ hb, hbk⟩

/-- A row of steps that go well gives what its items give. -/
theorem mapM_eq_some_iff {f : α → Option β} : ∀ {l : List α} {bs : List β},
    l.mapM f = some bs ↔ List.Forall₂ (fun a b => f a = some b) l bs := by
  intro l
  induction l with
  | nil =>
    intro bs
    rw [List.mapM_nil, List.forall₂_nil_left_iff, Option.pure_def, Option.some_inj, eq_comm]
  | cons a l ih =>
    intro bs
    simp only [List.mapM_cons, Option.bind_eq_bind, Option.bind_eq_some_iff, Option.pure_def,
      Option.some_inj, List.forall₂_cons_left_iff, ih]
    constructor
    · rintro ⟨b, hb, rest, hrest, rfl⟩
      exact ⟨b, rest, hb, hrest, rfl⟩
    · rintro ⟨b, rest, hb, hrest, rfl⟩
      exact ⟨b, hb, rest, hrest, rfl⟩

/-- A row of steps goes well if all its steps do. -/
theorem exists_mapM_iff {f : α → Option β} {l : List α} :
    (∃ bs, l.mapM f = some bs) ↔ ∀ a ∈ l, ∃ b, f a = some b := by
  simp only [mapM_eq_some_iff]
  induction l with
  | nil => simp
  | cons a l ih =>
    rw [List.forall_mem_cons, ← ih]
    constructor
    · rintro ⟨_, _ | ⟨ha, hl⟩⟩
      exact ⟨⟨_, ha⟩, _, hl⟩
    · rintro ⟨⟨b, ha⟩, bs, hl⟩
      exact ⟨b :: bs, .cons ha hl⟩

/-- A row of steps goes well and gives some images if all its steps do. -/
theorem exists_mapM_map_iff {γ : Type} {f : α → Option β} {p : β → γ} {q : α → γ} {l : List α} :
    (∃ bs, l.mapM f = some bs ∧ bs.map p = l.map q) ↔ ∀ a ∈ l, ∃ b, f a = some b ∧ p b = q a := by
  simp only [mapM_eq_some_iff]
  induction l with
  | nil => simp
  | cons a l ih =>
    rw [List.forall_mem_cons, ← ih]
    constructor
    · rintro ⟨_, _ | ⟨ha, hl⟩, hmap⟩
      obtain ⟨hp, hmap⟩ := List.cons.inj hmap
      exact ⟨⟨_, ha, hp⟩, _, hl, hmap⟩
    · rintro ⟨⟨b, ha, hp⟩, bs, hl, hmap⟩
      exact ⟨b :: bs, .cons ha hl, congrArg₂ List.cons hp hmap⟩

/-- What a row of steps that go well gives comes from its items. -/
theorem exists_mem_of_mapM {f : α → Option β} {l : List α} {bs : List β} (h : l.mapM f = some bs) :
    ∀ b ∈ bs, ∃ a ∈ l, f a = some b :=
  exists_mem_of_forall₂ (mapM_eq_some_iff.mp h)

/-- What is kept of a list corresponds to the members that something is kept of. -/
theorem forall₂_filterMap {f : α → Option β} {l : List α} (h : ∀ a ∈ l, ∀ b, f a = some b → r a b) :
    List.Forall₂ r (l.filter fun a => (f a).isSome) (l.filterMap f) := by
  induction l with
  | nil => exact .nil
  | cons a l ih =>
    obtain ⟨ha, hl⟩ := List.forall_mem_cons.mp h
    cases hb : f a with
    | none =>
      rw [List.filter_cons_of_neg (by simp [hb]), List.filterMap_cons_none hb]
      exact ih hl
    | some b =>
      rw [List.filter_cons_of_pos (by simp [hb]), List.filterMap_cons_some hb]
      exact .cons (ha b hb) (ih hl)

/-- Lists with the same images are equal if their members are. -/
theorem eq_of_forall₂ : ∀ {l m : List α} {js : List β}, List.Forall₂ r l js →
    List.Forall₂ r m js → (∀ a ∈ l, ∀ b ∈ m, ∀ j, r a j → r b j → a = b) → l = m := by
  intro l
  induction l with
  | nil =>
    intro m js hl hm _
    cases hl
    cases hm
    rfl
  | cons a l ih =>
    intro m js hl hm h
    cases hl with
    | cons ha hl =>
      cases hm with
      | cons hb hm =>
        rw [h _ List.mem_cons_self _ List.mem_cons_self _ ha hb, ih hl hm fun x hx y hy =>
          h x (List.mem_cons_of_mem _ hx) y (List.mem_cons_of_mem _ hy)]

end forall₂

/-! ### Rows of computations -/

/-- A row of computations goes well if it gives what its items give. -/
theorem mapM_eq_ok_iff {ε α β : Type} {f : α → Except ε β} : ∀ {l : List α} {bs : List β},
    l.mapM f = .ok bs ↔ List.Forall₂ (fun a b => f a = .ok b) l bs := by
  intro l
  induction l with
  | nil =>
    intro bs
    rw [List.mapM_nil, List.forall₂_nil_left_iff]
    exact ⟨fun h => (Except.ok.inj h).symm, fun h => h ▸ rfl⟩
  | cons a l ih =>
    intro bs
    rw [List.mapM_cons, except_bind_eq_ok, List.forall₂_cons_left_iff]
    constructor
    · rintro ⟨b, ha, h⟩
      obtain ⟨rest, hrest, h⟩ := except_bind_eq_ok.mp h
      exact ⟨b, rest, ha, ih.mp hrest, (Except.ok.inj h).symm⟩
    · rintro ⟨b, rest, ha, hrest, rfl⟩
      exact ⟨b, ha, except_bind_eq_ok.mpr ⟨rest, ih.mpr hrest, rfl⟩⟩

/-- A row of computations fails as the first of them does that fails. -/
theorem mapM_eq_error_iff {ε α β : Type} {f : α → Except ε β} {e : ε} : ∀ {l : List α},
    l.mapM f = .error e ↔ ∃ before a after, l = before ++ a :: after ∧
      (∀ c ∈ before, ∃ b, f c = .ok b) ∧ f a = .error e := by
  intro l
  induction l with
  | nil => simp [pure, Except.pure]
  | cons a l ih =>
    rw [List.mapM_cons, except_bind_eq_error]
    constructor
    · rintro (ha | ⟨b, hb, h⟩)
      · exact ⟨[], a, l, rfl, fun _ hc => absurd hc List.not_mem_nil, ha⟩
      · obtain ⟨before, c, after, rfl, hbefore, hc⟩ :=
          ih.mp ((except_bind_eq_error_iff fun bs => ⟨b :: bs, rfl⟩).mp h)
        exact ⟨a :: before, c, after, rfl, List.forall_mem_cons.mpr ⟨⟨b, hb⟩, hbefore⟩, hc⟩
    · rintro ⟨before, c, after, heq, hbefore, hc⟩
      cases before with
      | nil =>
        obtain ⟨rfl, -⟩ := List.cons.inj heq
        exact .inl hc
      | cons d before =>
        obtain ⟨rfl, rfl⟩ := List.cons.inj heq
        obtain ⟨⟨b, hb⟩, hbefore⟩ := List.forall_mem_cons.mp hbefore
        refine .inr ⟨b, hb, except_bind_eq_error.mpr (.inl (ih.mpr ?_))⟩
        exact ⟨before, c, after, rfl, hbefore, hc⟩

/-- What a row of computations that goes well gives comes from its items. -/
theorem exists_mem_of_mapM_ok {ε α β : Type} {f : α → Except ε β} {l : List α} {bs : List β}
    (h : l.mapM f = .ok bs) : ∀ b ∈ bs, ∃ a ∈ l, f a = .ok b :=
  exists_mem_of_forall₂ (mapM_eq_ok_iff.mp h)

/-! ### Lists that look alike -/

/-- Lists that look alike look alike as well to who sees less of each member. -/
theorem map_eq_map_of_mem {α β γ : Type} {f : α → β} {g : α → γ} : ∀ {l m : List α},
    (∀ a ∈ l, ∀ b ∈ m, f a = f b → g a = g b) → l.map f = m.map f → l.map g = m.map g := by
  intro l
  induction l with
  | nil =>
    intro m _ h
    rw [List.map_eq_nil_iff.mp h.symm]
  | cons a l ih =>
    intro m hfg h
    cases m with
    | nil => cases h
    | cons b m =>
      obtain ⟨hab, hlm⟩ := List.cons.inj h
      rw [List.map_cons, List.map_cons, hfg a List.mem_cons_self b List.mem_cons_self hab,
        ih (fun x hx y hy => hfg x (List.mem_cons_of_mem _ hx) y (List.mem_cons_of_mem _ hy)) hlm]

end SolidityCanvas
