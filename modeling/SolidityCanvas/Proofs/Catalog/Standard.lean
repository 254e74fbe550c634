/-
The standard catalog.

Its files are read and its templates are checked once (`standardLines_checked`).
They are regular, so that every canvas can be compiled, hide the ids of instances,
and have one name space for types:

* `Catalog.ofFiles_standardFiles`: the files of the standard catalog make a
  catalog;
* `Canvas.standard_compiles_or_breaks_off`: a canvas whose templates are in it is
  compiled or rejected, whatever its properties and connections are, unless there is
  no room for the types of its interface.
-/
import SolidityCanvas.Proofs.Canvas.Parts
import SolidityCanvas.Proofs.Canvas.Renaming
import SolidityCanvas.Proofs.Catalog.Anonymous
import SolidityCanvas.Proofs.Catalog.FunctionTemplate
import SolidityCanvas.Proofs.Catalog.Lines
import SolidityCanvas.Proofs.Compiler.Keys
import SolidityCanvas.Proofs.Contract.Names
import SolidityCanvas.Proofs.Hash.Keccak

namespace SolidityCanvas

/-- A function with a guard. -/
def Canvas.guarded : Canvas where
  instances := [
    ⟨"m", "modifier", [("name", .string "locked")]⟩,
    ⟨"f", "function", [("name", .string "one")]⟩]
  connections := [⟨"m", "f"⟩]

/-- A guard that tells of an event. -/
def Canvas.watched : Canvas where
  instances := [
    ⟨"e", "event", [("name", .string "Pinged")]⟩,
    ⟨"m", "modifier", [("name", .string "locked")]⟩]
  connections := [⟨"e", "m"⟩]

/-- What decides the key of the event, where ids begin with something. -/
def pingedMessage (front : String) : String :=
  "event\x00\"id\"=\"" ++ front ++ "e\"\n\"name\"=\"Pinged\"\n\"params\"=[]\n"

/-- What decides the key of the guard, where it has more links. -/
def lockedMessage (front links : String) : String :=
  "modifier\x00" ++ links ++ "\"body\"=\"_;\"\n\"events\"=[\"Pinged\"]\n\"id\"=\"" ++ front ++
    "m\"\n\"name\"=\"locked\"\n\"params\"=[]\n"

/-- What a link adds to it. -/
def auditsText : String := "\"audits\"=[]\n"

/-- These are told apart by the first bytes of their digests. -/
def watchedMessages : List String := [
  pingedMessage "", lockedMessage "" "", pingedMessage "copy-", lockedMessage "copy-" "",
  lockedMessage "" auditsText]

theorem head_watchedMessages : watchedMessages.map (fun s => (keccak256 s).head?) =
    [some 178, some 38, some 142, some 176, some 86] := by
  simp only [watchedMessages, List.map_cons, List.map_nil, keccak256_eq_numbers, List.cons.injEq,
    and_true]
  -- One digest after another, so that only one of them is held at a time.
  refine ⟨?_, ?_, ?_, ?_, ?_⟩ <;> decide +kernel

theorem injOn_watchedMessages : Set.InjOn keccak256 {s | s ∈ watchedMessages} := by
  have hheads : ((watchedMessages.map keccak256).map List.head?).Nodup := by
    rw [List.map_map]
    exact head_watchedMessages ▸ by decide
  exact fun s hs t ht h => List.inj_on_of_nodup_map hheads.of_map hs ht h

/-- A record with a field of a declared type and a list that fills more than all
addresses, and a function that takes the record.  The declared type has no form, and so
the function is left out before its list is looked at. -/
def Canvas.shadowed : Canvas where
  instances := [
    ⟨"b", "struct", [
      ("fields", .tuple [.string "mapping(uint256 => uint256) m"]), ("name", .string "bool8")]⟩,
    ⟨"s", "struct", [
      ("fields", .tuple [.string "bool8 b", .string "uint256[9223372036854775807] x"]),
      ("name", .string "S")]⟩,
    ⟨"f", "function", [("name", .string "f"), ("params", .tuple [.string "S s"])]⟩]

/-- Without the declaration the name stands for a type of the interface. -/
def Canvas.unshadowed : Canvas := ((remove "b" default).on (shadowed.reopen default)).2

namespace Catalog

/-- The files of the standard catalog with their lines. -/
def standardLines : List (String × List String) := [
  ("data/categories.hcl", categoriesLines),
  ("data/connections.hcl", connectionsLines),
  ("data/core.hcl", coreLines),
  ("data/patterns.hcl", patternsLines)]

theorem standardFiles_eq :
    standardFiles = standardLines.map fun f => (f.1, textOfLines f.2) := rfl

/-- The ids of its templates. -/
def standardIds : List String := [
  "state-variable", "mapping", "struct", "enum", "event", "modifier", "constructor", "function",
  "eternal-storage", "batch-transfer", "erc20-token", "staking-pool", "simple-governor",
  "chainlink-price-feed", "uups-upgradeable", "crosschain-receiver"]

/-- What is checked of the standard catalog. -/
structure PassesStandard (c : Catalog) : Prop where
  regular : c.isRegular = true
  ids : c.templates.map (·.id) = standardIds
  hidesIds : c.hidesIds = true
  sharesTypeNames : c.sharesTypeNames = true
  namesByName : c.NamesByName
  writesFunctions : c.writesFunctions = true
  guards : (c.template? "modifier").all
    (fun t => !([InterfaceKind.record, .enumeration].contains t.kind)) = true
  guarded : Canvas.guarded.isSound c = true
  watched : Canvas.watched.isSound c = true
  messages : Canvas.watched.hasMessages [pingedMessage "", lockedMessage "" ""] c = true
  messages' : (Canvas.watched.rename ("copy-" ++ ·)).hasMessages
    [pingedMessage "copy-", lockedMessage "copy-" ""] c = true
  oversized : Canvas.oversized.isBroken c = true
  shadowed : Canvas.shadowed.isSound c = true
  unshadowed : Canvas.unshadowed.isBroken c = true

/-- The same, without looking the names in the canvases up among the reserved words. -/
def passesUnreserved (c : Catalog) : Bool :=
  c.isRegular && c.templates.map (·.id) == standardIds && c.hidesIds && c.sharesTypeNames &&
    decide c.NamesByName && c.writesFunctions &&
    (c.template? "modifier").all
      (fun t => !([InterfaceKind.record, .enumeration].contains t.kind)) &&
    Canvas.guarded.isSoundWith Solidity.plainNames c &&
    Canvas.watched.isSoundWith Solidity.plainNames c &&
    Canvas.watched.hasMessages [pingedMessage "", lockedMessage "" ""] c &&
    (Canvas.watched.rename ("copy-" ++ ·)).hasMessages
      [pingedMessage "copy-", lockedMessage "copy-" ""] c &&
    Canvas.oversized.isBrokenWith Solidity.plainNames c &&
    Canvas.shadowed.isSoundWith Solidity.plainNames c &&
    Canvas.unshadowed.isBrokenWith Solidity.plainNames c

theorem passesStandard_of_passesUnreserved {c : Catalog} (h : c.passesUnreserved = true) :
    c.PassesStandard := by
  simp only [passesUnreserved, Bool.and_eq_true, beq_iff_eq, decide_eq_true_eq, and_assoc] at h
  obtain ⟨hregular, hids, hhides, hshares, hnames, hwrites, hguards, hguarded, hwatched, hmessages,
    hmessages', hoversized, hshadowed, hunshadowed⟩ := h
  have hsound := fun {canvas : Canvas} (h : canvas.isSoundWith Solidity.plainNames c = true) =>
    Canvas.isSound_of_isSoundWith h Solidity.isReserved_of_mem_plainNames
  have hbroken := fun {canvas : Canvas} (h : canvas.isBrokenWith Solidity.plainNames c = true) =>
    Canvas.isBroken_of_isBrokenWith h Solidity.isReserved_of_mem_plainNames
  exact ⟨hregular, hids, hhides, hshares, hnames, hwrites, hguards, hsound hguarded, hsound hwatched,
    hmessages, hmessages', hbroken hoversized, hsound hshadowed, hbroken hunshadowed⟩

/-- A pack with a link from its category to that of the guards. -/
def auditLines : List (String × List String) := [("audit.hcl", [
  "category \"audit\" \x7b",
  "  section = \"definitions\"",
  "\x7d",
  "connection \"audit\" \"modifier\" \x7b",
  "  order = \"forward\"",
  "  link = \"audits\"",
  "\x7d"])]

/-- What is checked of the standard catalog with this pack. -/
def passesAudited (c : Catalog) : Bool :=
  Canvas.watched.hasMessages [pingedMessage "", lockedMessage "" auditsText] c

-- All files are read and all templates checked by this one computation.
set_option maxRecDepth 100000 in
theorem standardLines_checked : ∃ spelled, SpelledFiles standardLines spelled ∧
    (checkChars spelled passesUnreserved &&
      checkChars (spelled ++ auditLines.map fun f => (f.1, lineChars f.2)) passesAudited) = true := by
  apply Exists.intro
  apply And.intro
  · dsimp only [standardLines, categoriesLines, connectionsLines, coreLines, patternsLines]
    repeat first | exact .nil | apply Spelled.cons | apply SpelledFiles.cons
  · decide +kernel

theorem passesStandard_standard : ofFiles standardFiles = .ok standard ∧ standard.PassesStandard := by
  obtain ⟨spelled, hspelled, hchecks⟩ := standardLines_checked
  obtain ⟨c, hc, hcheck⟩ := exists_ofFiles_spelled _ hspelled (by decide)
    (Bool.and_eq_true_iff.mp hchecks).1
  rw [← standardFiles_eq] at hc
  have hstandard : standard = c := by
    rw [standard, hc]
    rfl
  rw [hstandard]
  exact ⟨hc, passesStandard_of_passesUnreserved hcheck⟩

theorem exists_audited : ∃ c,
    ofFiles (standardFiles ++ auditLines.map fun f => (f.1, textOfLines f.2)) = .ok c ∧
      c.passesAudited = true := by
  obtain ⟨spelled, hspelled, hchecks⟩ := standardLines_checked
  have haudit : SpelledFiles auditLines (auditLines.map fun f => (f.1, lineChars f.2)) :=
    spelledFiles_lineChars (by decide)
  rw [standardFiles_eq, ← List.map_append]
  exact exists_ofFiles_spelled _ (hspelled.append haudit) (by decide)
    (Bool.and_eq_true_iff.mp hchecks).2

/-- **The files of the standard catalog make a catalog** of regular templates. -/
theorem ofFiles_standardFiles : ofFiles standardFiles = .ok standard ∧
    standard.isRegular = true ∧ standard.templates.map (·.id) = standardIds := by
  obtain ⟨hfiles, hpasses⟩ := passesStandard_standard
  exact ⟨hfiles, hpasses.regular, hpasses.ids⟩

theorem categoriesAgree_standard : standard.CategoriesAgree :=
  categoriesAgree_of_ofFiles passesStandard_standard.1

/-- **How the standard catalog writes functions.**  Their text is put together from the
values of the template's variables alone, and brings neither imports nor bases along. -/
theorem standard_render_function (v : FunctionValues) {b : Bag} (h : v.BoundIn b) :
    ∃ t, standard.template? "function" = some t ∧
      t.render b = .ok ⟨Text.normalize v.normalized.text, [], []⟩ :=
  exists_render_of_writesFunctions passesStandard_standard.2.writesFunctions h

/-- A function with a guard and two events, one of which its body emits. -/
def payment : FunctionValues where
  name := "pay"
  params := ["address to", "uint256 amount"]
  returns := ["bool"]
  visibility := "public"
  mutability := "payable"
  isVirtual := true
  isOverride := false
  body := "emit Paid(amount);\n\nreturn true;"
  modifiers := ["locked"]
  events := ["Paid", "Sent"]

/-- How it is written. -/
def paymentLines : List String := [
  "function pay(address to, uint256 amount) public payable virtual locked returns (bool) \x7b",
  "    // emits Sent",
  "    emit Paid(amount);",
  "",
  "    return true;",
  "\x7d"]

theorem render_payment : payment.BoundIn (payment.bag [] "pay") ∧
    ∃ t, standard.template? "function" = some t ∧
      t.render (payment.bag [] "pay") = .ok ⟨textOfLines paymentLines, [], []⟩ := by
  have htext : Text.normalize payment.normalized.text = textOfLines paymentLines := by
    decide +kernel
  rw [← htext]
  exact ⟨payment.boundIn_bag [] "pay",
    standard_render_function payment (payment.boundIn_bag [] "pay")⟩

theorem isSome_template?_iff {c : Catalog} {id : String} :
    (c.template? id).isSome = true ↔ id ∈ c.templates.map (·.id) := by
  rw [template?, List.find?_isSome, List.mem_map]
  simp

end Catalog

/-- A canvas in which nothing is wrong is written by the standard catalog. -/
theorem Compiler.exists_emitted_of_isSound {canvas : Canvas}
    (h : canvas.isSound Catalog.standard = true) (capacity : Nat) (header : Header) :
    ∃ r, ((new Catalog.standard capacity).compile canvas header false).1 = .ok r ∧
      r.status = .emitted ∧ Diagnostic.hasErrors r.findings = false := by
  obtain ⟨⟨ks, fs, hks⟩, hacceptable, hgoes⟩ :=
    Canvas.acceptable_of_isSound Catalog.categoriesAgree_standard h
  exact exists_emitted Catalog.categoriesAgree_standard Catalog.ofFiles_standardFiles.2.1
    (Canvas.known_of_components hks) capacity header hacceptable hgoes

namespace Canvas

variable {canvas : Canvas}

theorem known_standard (h : ∀ i ∈ canvas.instances, canvas.instance? i.id = some i →
    i.template ∈ Catalog.standardIds) : canvas.Known Catalog.standard := by
  intro i hi hfirst
  rw [Catalog.isSome_template?_iff, Catalog.ofFiles_standardFiles.2.2]
  exact h i hi hfirst

/-- **What a canvas can do to the standard catalog.**  The first instance of each id
names a template of the standard catalog; nothing is said about properties,
connections, the header and what a compiler remembers.  Then every compilation
that is not canceled has a result, or breaks off: it does if it remembers no result
and nothing is wrong with the canvas, but the types of an entry have no room in the
machine.  The names that a component declares can be told, and every entry of an
arrangement can be rendered. -/
theorem standard_compiles_or_breaks_off (h : canvas.Known Catalog.standard) :
    (∀ (c : Compiler) (header : Header), c.catalog = Catalog.standard →
      ((∃ r, (c.compile canvas header false).1 = .ok r) ∨
        (c.compile canvas header false).1 = .error .broken) ∧
      ((c.compile canvas header false).1 = .error .broken ↔
        c.remembered? canvas header = none ∧ canvas.BreaksOff Catalog.standard)) ∧
    (∀ ks fs, canvas.components Catalog.standard = .ok (ks, fs) → ∀ k ∈ ks,
      ∃ names, k.template.declaredNames k.id k.properties.bag = .ok names) ∧
    ∀ a, canvas.arrange Catalog.standard = .ok (.ok a) → ∀ e ∈ a.entries,
      ∃ rendered, e.component.template.render e.bindings = .ok rendered := by
  obtain ⟨_, hregular, _⟩ := Catalog.ofFiles_standardFiles
  refine ⟨fun c header hc => ?_, fun ks fs hks k hk => exists_declaredNames hregular hks hk,
    fun a ha e he => exists_render hregular ha he⟩
  rw [← hc] at h hregular ⊢
  exact Compiler.compile_cases (hc ▸ Catalog.categoriesAgree_standard) hregular h header

/-- A structure without any of its properties, and a function with properties of
the wrong types; a second instance with the id of the structure has no template. -/
def careless : Canvas where
  instances := [
    ⟨"s", "struct", []⟩,
    ⟨"f", "function", [("name", .bool true), ("params", .tuple [.null .dynamic])]⟩,
    ⟨"s", "nothing", []⟩]
  connections := [⟨"s", "f"⟩, ⟨"f", "f"⟩, ⟨"f", "nowhere"⟩]

theorem careless_is_compiled : careless.Known Catalog.standard ∧
    ∃ r, ((Compiler.new Catalog.standard 0).compile careless {} false).1 = .ok r := by
  have hids : ∀ i ∈ careless.instances, careless.instance? i.id = some i →
      i.template ∈ Catalog.standardIds := by
    intro i hi hfirst
    simp only [careless, List.mem_cons, List.not_mem_nil, or_false] at hi
    rcases hi with rfl | rfl | rfl
    · decide
    · decide
    -- The first instance with this id is another one.
    · have htemplate : "struct" = "nothing" := congrArg Instance.template (Option.some.inj hfirst)
      exact absurd htemplate (by decide)
  have hknown := known_standard hids
  have hcatalog : ∀ catalog, (Compiler.new catalog 0).catalog = catalog := fun _ => rfl
  obtain ⟨hcases, hiff⟩ := (standard_compiles_or_breaks_off hknown).1 _ {} (hcatalog _)
  rcases hcases with hr | hbroken
  · exact ⟨hknown, hr⟩
  -- Two instances have one id, which is an error.
  · exact absurd (hiff.mp hbroken).2.1.ids_nodup (by decide)

/-- **A canvas breaks the standard catalog**, although nothing is wrong with it. -/
theorem oversized_breaks_standard : oversized.Known Catalog.standard ∧
    oversized.Acceptable Catalog.standard ∧
    ¬∃ r, ((Compiler.new Catalog.standard 0).compile oversized {} false).1 = .ok r := by
  obtain ⟨⟨ks, fs, hks⟩, hbreaks⟩ :=
    breaksOff_of_isBroken Catalog.categoriesAgree_standard Catalog.passesStandard_standard.2.oversized
  have hbroken := Compiler.compile_eq_broken Catalog.categoriesAgree_standard
    Catalog.ofFiles_standardFiles.2.1 (known_of_components hks) 0 {} hbreaks
  refine ⟨known_of_components hks, hbreaks.1, ?_⟩
  rintro ⟨r, hr⟩
  cases hbroken.symm.trans hr

end Canvas

end SolidityCanvas
