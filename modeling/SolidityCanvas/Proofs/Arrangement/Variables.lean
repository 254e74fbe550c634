/-
Which value each variable of a template has.

The variables of an entry are its properties, a list for each link and its id,
and of several variables with one name the last counts (`lookup_bindings`).
Properties have names of their own in every catalog that was built from files
that were read, so that

* each property has its value and `id` is the id of the instance
  (`Canvas.variables_have_values`);
* each link has its list, unless it is called `id` itself: no rule is asked for
  another name, and the id of the instance then hides the list
  (`Canvas.id_hides_link`).
-/
import SolidityCanvas.Proofs.Catalog.Invariant
import SolidityCanvas.Proofs.Catalog.Scope

namespace SolidityCanvas

open Config

namespace Entry

variable {e : Entry} {catalog : Catalog}

/-- Links count before properties, and the id before both. -/
theorem lookup_bindings (e : Entry) (n : String) : e.bindings.get? n =
    if n = "id" then some (.text e.id) else
      ((e.component.template.links.map fun l => (l, Value.texts (e.linked l))).reverse.lookup n).or
        (e.component.properties.values.reverse.lookup n) := by
  rw [Bag.get?, bindings, Bag.ofList, Value.lookup_sortNamed, List.reverse_append,
    List.reverse_append, List.lookup_append, List.lookup_append, List.reverse_singleton,
    List.lookup_cons, List.lookup_nil]
  by_cases hn : n = "id"
  · simp [hn]
  · simp [hn, beq_eq_false_iff_ne.mpr hn]

@[simp] theorem lookup_bindings_id (e : Entry) : e.bindings.get? "id" = some (.text e.id) :=
  (e.lookup_bindings "id").trans (if_pos rfl)

theorem lookup_reverse_of_mem {α : Type} {l : List (String × α)} {n : String} {a : α}
    (hnd : (l.map (·.1)).Nodup) (h : (n, a) ∈ l) : l.reverse.lookup n = some a :=
  lookup_of_mem (by rw [List.map_reverse]; exact List.nodup_reverse.mpr hnd)
    (List.mem_reverse.mpr h)

/-- A link has its list if it is not called like the id. -/
theorem lookup_bindings_link (hsorted : e.component.template.links.Pairwise (· < ·)) {l : String}
    (hl : l ∈ e.component.template.links) (hid : l ≠ "id") :
    e.bindings.get? l = some (.texts (e.linked l)) := by
  have hnd : ((e.component.template.links.map fun l => (l, Value.texts (e.linked l))).map
      (·.1)).Nodup := by
    rw [List.map_map]
    exact (List.map_id _).symm ▸ hsorted.imp ne_of_lt
  rw [lookup_bindings, if_neg hid,
    lookup_reverse_of_mem hnd (List.mem_map.mpr ⟨l, hl, rfl⟩), Option.some_or]

/-- A property has its value if no link is called like it. -/
theorem lookup_bindings_property (hnd : e.component.properties.names.Nodup) {n : String} {v : Value}
    (hn : (n, v) ∈ e.component.properties.values) (hlinks : n ∉ e.component.template.links)
    (hid : n ≠ "id") : e.bindings.get? n = some v := by
  have hnone : (e.component.template.links.map fun l =>
      (l, Value.texts (e.linked l))).reverse.lookup n = none := by
    rw [List.lookup_eq_none_iff]
    intro p hp
    obtain ⟨l, hl, rfl⟩ := List.mem_map.mp (List.mem_reverse.mp hp)
    simpa using fun heq : n = l => hlinks (heq ▸ hl)
  rw [lookup_bindings, if_neg hid, hnone, Option.none_or, lookup_reverse_of_mem hnd hn]

end Entry

namespace Canvas

variable {files : List (String × Definitions)} {catalog : Catalog} {c : Canvas} {a : Arrangement}
  {e : Entry}

/-- **Every variable has its value.**  With a catalog that is built from files that
were read, whatever the canvas: an entry of its arrangement binds the names of the
properties and links of its template and `id`, and nothing else.

Each property has the value it was given, or its default; `id` is the id of the
instance; and a link with another name than `id` has the list of the names that
connections give it.  All links have their lists exactly if no rule that gives a
link to the category calls it `id`. -/
theorem variables_have_values (hread : ∀ f ∈ files, ∃ b, Definitions.read b = .ok f.2)
    (hbuild : Catalog.build files = .ok catalog) (ha : c.arrange catalog = .ok (.ok a))
    (he : e ∈ a.entries) :
    (∃ i ∈ c.instances, e.id = i.id ∧ ∀ p ∈ e.component.template.properties,
      e.component.properties.get? p.name = some (p.bind i.id i.properties).1 ∧
      e.bindings.get? p.name = some (p.bind i.id i.properties).1) ∧
    (∀ l ∈ e.component.template.links, l ≠ "id" →
      e.bindings.get? l = some (.texts (e.linked l))) ∧
    e.bindings.get? "id" = some (.text e.id) ∧
    (∀ n, n ∈ e.bindings.names ↔ n ∈ e.component.template.properties.map (·.name) ∨
      n ∈ e.component.template.links ∨ n = "id") ∧
    ((∀ l ∈ e.component.template.links, e.bindings.get? l = some (.texts (e.linked l))) ↔
      ∀ r ∈ catalog.rules, r.dependent = e.component.template.category.name → r.link ≠ "id") := by
  have hinvariant :=
    (Catalog.coherent_of_build hread hbuild).invariant (Catalog.made_of_build hbuild)
  obtain ⟨i, hi, t, ht, hc⟩ := exists_instance_of_mem_entries ha he
  have hvalid := hinvariant.templates t (List.mem_of_find?_eq_some ht)
  obtain ⟨component, links⟩ := e
  obtain rfl : component = Component.ofInstance i t := hc
  have hnames : (Component.ofInstance i t).properties.names.Nodup := by
    rw [Component.names_ofInstance]
    exact hvalid.names
  have hlinks : ∀ l ∈ t.links, l ≠ "id" →
      (Entry.mk (Component.ofInstance i t) links).bindings.get? l =
        some (.texts ((Entry.mk (Component.ofInstance i t) links).linked l)) :=
    fun l hl hid => Entry.lookup_bindings_link hvalid.sorted hl hid
  refine ⟨⟨i, hi, rfl, fun p hp => ?_⟩, hlinks, Entry.lookup_bindings_id _,
    fun n => Component.mem_names_bindings, fun hall r hr hdependent hid => ?_,
    fun hrules l hl => hlinks l hl ?_⟩
  · have hvalue : (p.name, (p.bind i.id i.properties).1) ∈
        (Component.ofInstance i t).properties.values := by
      rw [Component.values_ofInstance]
      exact List.mem_map.mpr ⟨p, hp, rfl⟩
    obtain ⟨hlink, hid⟩ := hvalid.unshadowed p hp
    exact ⟨lookup_of_mem hnames hvalue, Entry.lookup_bindings_property hnames hvalue hlink hid⟩
  · -- The id is a text and no list.
    have hl : "id" ∈ t.links := (hvalid.links "id").mpr ⟨by decide, r, hr, hdependent, hid⟩
    have hlist := hall "id" hl
    rw [Entry.lookup_bindings_id] at hlist
    cases hlist
  · rintro rfl
    obtain ⟨-, r, hr, hdependent, hid⟩ := (hvalid.links "id").mp hl
    exact hrules r hr hdependent hid

/-- A holder that gives its name to a reader. -/
def holders : Canvas where
  instances := [⟨"r", "reader", []⟩, ⟨"h", "holder", [("name", .string "stock")]⟩]
  connections := [⟨"h", "r"⟩]

theorem holders_have_values : ∃ catalog a, Catalog.build Catalog.holderFiles = .ok catalog ∧
    holders.arrange catalog = .ok (.ok a) ∧ ∃ e ∈ a.entries, e.id = "r" ∧
      e.bindings.get? "holders" = some (.texts ["stock"]) ∧
      e.bindings.get? "id" = some (.text "r") := by
  have hread : ∀ f ∈ Catalog.holderFiles, ∃ b, Definitions.read b = .ok f.2 := by
    intro f hf
    rw [List.mem_singleton.mp hf]
    exact ⟨Catalog.holderBody, rfl⟩
  obtain ⟨catalog, hbuild⟩ : ∃ catalog, Catalog.build Catalog.holderFiles = .ok catalog := ⟨_, rfl⟩
  obtain ⟨a, e, ha, he, hid, hlinks, hlinked⟩ : ∃ a e, holders.arrange catalog = .ok (.ok a) ∧
      e ∈ a.entries ∧ e.id = "r" ∧ e.component.template.links = ["holders"] ∧
      e.linked "holders" = ["stock"] := by
    obtain rfl := Except.ok.inj hbuild
    exact ⟨_, _, rfl, List.mem_cons_of_mem _ List.mem_cons_self, rfl, rfl, rfl⟩
  obtain ⟨-, hlists, hvalue, -⟩ := variables_have_values hread hbuild ha he
  refine ⟨catalog, a, hbuild, ha, e, he, hid, ?_, hid ▸ hvalue⟩
  rw [hlists "holders" (by simp [hlinks]) (by decide), hlinked]

end Canvas

/-! ### A link that is called like the id -/

/-- A file with accounts that give their names to vaults, by a link that is called
like the id of the instance. -/
def Catalog.vaultBody : Body where
  blocks := [
    .mk "category" ["account"] [
      ⟨"section", .template [.literal (.string "state")]⟩, ⟨"named", .literal (.bool true)⟩,
      ⟨"namespace", .template [.literal (.string "members")]⟩] [],
    .mk "category" ["vault"] [⟨"section", .template [.literal (.string "functions")]⟩] [],
    .mk "connection" ["account", "vault"] [
      ⟨"order", .template [.literal (.string "forward")]⟩,
      ⟨"link", .template [.literal (.string "id")]⟩] [],
    .mk "template" ["account"] [
        ⟨"category", .template [.literal (.string "account")]⟩, ⟨"emit", .reference "name" []⟩]
      [.mk "property" ["name"] [
        ⟨"type", .reference "string" []⟩, ⟨"required", .literal (.bool true)⟩] []],
    .mk "template" ["vault"] [
        ⟨"category", .template [.literal (.string "vault")]⟩, ⟨"emit", .reference "id" []⟩] []]

/-- What the file defines. -/
def Catalog.vaultFiles : List (String × Definitions) :=
  [("vault", ((Definitions.read vaultBody).toOption).getD {})]

/-- A vault with an account. -/
def Canvas.vault : Canvas where
  instances := [⟨"v", "vault", []⟩, ⟨"a", "account", [("name", .string "savings")]⟩]
  connections := [⟨"a", "v"⟩]

/-- **The id hides a link of its name**: the vault has the list of its account, but
its template cannot read it. -/
theorem Canvas.id_hides_link : (∀ f ∈ Catalog.vaultFiles, ∃ b, Definitions.read b = .ok f.2) ∧
    ∃ catalog a, Catalog.build Catalog.vaultFiles = .ok catalog ∧
      Canvas.vault.arrange catalog = .ok (.ok a) ∧ ∃ e ∈ a.entries,
        "id" ∈ e.component.template.links ∧ e.linked "id" = ["savings"] ∧
        e.bindings.get? "id" = some (.text "v") ∧
        ¬ ∀ l ∈ e.component.template.links, e.bindings.get? l = some (.texts (e.linked l)) := by
  refine ⟨fun f hf => ?_, ?_⟩
  · rw [List.mem_singleton.mp hf]
    exact ⟨Catalog.vaultBody, rfl⟩
  obtain ⟨catalog, hbuild⟩ : ∃ catalog, Catalog.build Catalog.vaultFiles = .ok catalog := ⟨_, rfl⟩
  obtain ⟨a, e, ha, he, hid, hlinks, hlinked⟩ : ∃ a e, Canvas.vault.arrange catalog = .ok (.ok a) ∧
      e ∈ a.entries ∧ e.id = "v" ∧ e.component.template.links = ["id"] ∧
      e.linked "id" = ["savings"] := by
    obtain rfl := Except.ok.inj hbuild
    exact ⟨_, _, rfl, List.mem_cons_of_mem _ List.mem_cons_self, rfl, rfl, rfl⟩
  have hmem : "id" ∈ e.component.template.links := hlinks ▸ List.mem_cons_self
  refine ⟨catalog, a, hbuild, ha, e, he, hmem, hlinked, ?_, fun hall => ?_⟩
  · rw [Entry.lookup_bindings_id, hid]
  · have hlist := hall "id" hmem
    rw [Entry.lookup_bindings_id] at hlist
    cases hlist

end SolidityCanvas
