/-
How functions are written.

The template of functions is told by its expression (`functionEmit`): the head of the
function on one line, a remark for each event that the body does not emit, and the
body.  A catalog is checked for it (`Catalog.writesFunctions`).

* `FunctionValues.text`: the text of a function, put together from its values alone;
* `yields_functionEmit`: the template yields this text.
-/
import SolidityCanvas.Catalog.Basic
import SolidityCanvas.Proofs.Config.Texts

namespace SolidityCanvas

open Config

/-! ### The text of a function -/

namespace Text

/-- Puts `pad` after every line feed that neither a line feed nor the end follows: before
every line but the first and the empty ones. -/
def movedIn (pad : List Char) : List Char → List Char
  | [] => []
  | c :: cs =>
    if c = '\n' ∧ cs.headD '\n' ≠ '\n' then c :: (pad ++ movedIn pad cs)
    else c :: movedIn pad cs

theorem splitOnChar_ne_nil (sep : Char) (cs : List Char) : splitOnChar sep cs ≠ [] := by
  cases cs with
  | nil => exact List.cons_ne_nil _ _
  | cons c cs =>
    rw [splitOnChar]
    split
    · exact List.cons_ne_nil _ _
    · split
      · exact List.cons_ne_nil _ _
      · exact List.cons_ne_nil _ _

theorem headD_of_splitOnChar {cs l : List Char} {ls : List (List Char)}
    (h : splitOnChar '\n' cs = l :: ls) : cs.headD '\n' = '\n' ↔ l = [] := by
  cases cs with
  | nil =>
    obtain ⟨rfl, -⟩ := List.cons.inj h
    simp
  | cons c cs =>
    rw [splitOnChar] at h
    split at h
    next hc =>
      obtain ⟨rfl, -⟩ := List.cons.inj h
      simpa using hc
    next hc =>
      have hne : l ≠ [] := by
        split at h
        all_goals
          obtain ⟨rfl, -⟩ := List.cons.inj h
          exact List.cons_ne_nil _ _
      simpa [hne] using hc

theorem intercalate_append_cons (sep l m : List Char) (ls : List (List Char)) :
    sep.intercalate ((l ++ m) :: ls) = l ++ sep.intercalate (m :: ls) := by
  cases ls with
  | nil => simp
  | cons n ls => simp

/-- The lines of a text that is moved in, with `pad` before those that are not empty. -/
theorem movedIn_eq_intercalate (pad : List Char) :
    ∀ {cs l : List Char} {ls : List (List Char)}, splitOnChar '\n' cs = l :: ls →
      movedIn pad cs =
        ['\n'].intercalate (l :: ls.map fun l => if l.isEmpty then l else pad ++ l) := by
  intro cs
  induction cs with
  | nil =>
    intro l ls h
    obtain ⟨rfl, rfl⟩ := List.cons.inj h
    rfl
  | cons c cs ih =>
    intro l ls h
    cases hcs : splitOnChar '\n' cs with
    | nil => exact absurd hcs (splitOnChar_ne_nil '\n' cs)
    | cons piece rest =>
      rw [splitOnChar, hcs] at h
      simp only [movedIn, ih hcs, ne_eq, headD_of_splitOnChar hcs]
      by_cases hc : c = '\n'
      · rw [if_pos (by simpa using hc)] at h
        obtain ⟨rfl, rfl⟩ := List.cons.inj h
        by_cases hpiece : piece = []
        · simp [hc, hpiece]
        · simp [hc, hpiece, intercalate_append_cons]
      · rw [if_neg (by simpa using hc)] at h
        obtain ⟨rfl, rfl⟩ := List.cons.inj h
        rw [if_neg fun h => hc h.1]
        exact (intercalate_append_cons _ [c] piece _).symm

/-- Moving in the lines of a text, told by its characters. -/
theorem indentLines_eq (spaces : Nat) (s : String) :
    indentLines spaces s = String.ofList (movedIn (List.replicate spaces ' ') s.toList) := by
  cases hs : splitOnChar '\n' s.toList with
  | nil => exact absurd hs (splitOnChar_ne_nil _ _)
  | cons l ls =>
    have hlines : lines s = String.ofList l :: ls.map String.ofList := by
      rw [lines, hs, List.map_cons]
    rw [movedIn_eq_intercalate _ hs, indentLines, hlines, ← String.toList_inj,
      String.toList_ofList, String.toList_intercalate, List.map_cons, List.map_map, List.map_map,
      @String.toList_ofList l]
    refine congrArg (fun ls => ['\n'].intercalate (l :: ls)) (List.map_congr_left fun m _ => ?_)
    by_cases hm : m = []
    · simp [hm]
    · simp [hm]

/-- The body of a function emits the event. -/
def Emits (body event : String) : Prop := ("emit " ++ event ++ "(").toList <:+: body.toList

instance (body event : String) : Decidable (Emits body event) :=
  inferInstanceAs (Decidable (_ <:+: _))

theorem normalize_emit (event : String) :
    normalize ("emit " ++ event ++ "(") = "emit " ++ normalize event ++ "(" := by
  have hspace : normalize ("emit " ++ (event ++ "(")) = "emit " ++ normalize (event ++ "(") :=
    normalize_around (c := ' ') (by decide) "emit" (event ++ "(")
  have hopen : normalize (event ++ "(" ++ "") = normalize event ++ "(" ++ "" :=
    normalize_around (c := '(') (by decide) event ""
  rw [String.append_empty, String.append_empty] at hopen
  rw [String.append_assoc, hspace, hopen, String.append_assoc]

end Text

/-- The values of a function: its properties, and the texts that its links stand for. -/
structure FunctionValues where
  name : String
  params : List String
  returns : List String
  visibility : String
  mutability : String
  isVirtual : Bool
  isOverride : Bool
  body : String
  modifiers : List String
  events : List String

namespace FunctionValues

variable (v : FunctionValues)

/-- The values with all texts in normal form. -/
def normalized : FunctionValues where
  name := Text.normalize v.name
  params := v.params.map Text.normalize
  returns := v.returns.map Text.normalize
  visibility := Text.normalize v.visibility
  mutability := Text.normalize v.mutability
  isVirtual := v.isVirtual
  isOverride := v.isOverride
  body := Text.normalize v.body
  modifiers := v.modifiers.map Text.normalize
  events := v.events.map Text.normalize

/-- The variables of the template of functions have these values. -/
structure BoundIn (b : Bag) : Prop where
  name : b.lookup "name" = some (.text v.name)
  params : b.lookup "params" = some (.texts v.params)
  returns : b.lookup "returns" = some (.texts v.returns)
  visibility : b.lookup "visibility" = some (.text v.visibility)
  mutability : b.lookup "mutability" = some (.text v.mutability)
  isVirtual : b.lookup "virtual" = some (.bool v.isVirtual)
  isOverride : b.lookup "override" = some (.bool v.isOverride)
  body : b.lookup "body" = some (.text v.body)
  modifiers : b.lookup "modifiers" = some (.texts v.modifiers)
  events : b.lookup "events" = some (.texts v.events)

/-- What the function with this id reads, if it calls others. -/
def bag (calls : List String) (id : String) : Bag := [
  ("body", .text v.body), ("calls", .texts calls), ("events", .texts v.events), ("id", .text id),
  ("modifiers", .texts v.modifiers), ("mutability", .text v.mutability), ("name", .text v.name),
  ("override", .bool v.isOverride), ("params", .texts v.params), ("returns", .texts v.returns),
  ("virtual", .bool v.isVirtual), ("visibility", .text v.visibility)]

theorem boundIn_bag (calls : List String) (id : String) : v.BoundIn (v.bag calls id) where
  name := rfl
  params := rfl
  returns := rfl
  visibility := rfl
  mutability := rfl
  isVirtual := rfl
  isOverride := rfl
  body := rfl
  modifiers := rfl
  events := rfl

/-- The first line. -/
def head : String :=
  "function " ++ v.name ++ "(" ++ ", ".intercalate v.params ++ ") " ++ v.visibility ++
    (if v.mutability = "" then "" else " " ++ v.mutability) ++
    (if v.isVirtual then " virtual" else "") ++ (if v.isOverride then " override" else "") ++
    String.join (v.modifiers.map fun m => " " ++ m) ++
    (if v.returns = [] then "" else " returns (" ++ ", ".intercalate v.returns ++ ")") ++ " \x7b\n"

/-- A line for each event that the body does not emit. -/
def remarks : String :=
  String.join (v.events.map fun e =>
    if Text.Emits v.body e then "" else "    // emits " ++ e ++ "\n")

/-- The body, moved in by four spaces. -/
def inside : String :=
  if v.body = "" then ""
  else "    " ++ String.ofList (Text.movedIn [' ', ' ', ' ', ' '] v.body.toList) ++ "\n"

/-- How the function is written. -/
def text : String := v.head ++ v.remarks ++ v.inside ++ "\x7d\n"

/-- The text of a function, part by part. -/
theorem join_parts : String.join ["function ", v.name, "(", ", ".intercalate v.params, ") ",
    v.visibility, if v.mutability != "" then String.join [" ", v.mutability] else "",
    if v.isVirtual then String.join [" virtual"] else "",
    if v.isOverride then String.join [" override"] else "",
    String.join (v.modifiers.map fun m => " " ++ m),
    if decide (0 < v.returns.length) then
      String.join [" returns (", ", ".intercalate v.returns, ")"] else "",
    " \x7b\n", v.remarks, "", v.inside, "\x7d\n"] = v.text := by
  unfold text head
  simp only [String.join_cons, String.join_nil, String.append_assoc, String.append_empty,
    String.empty_append, bne_iff_ne, decide_eq_true_eq, List.length_pos_iff, ne_eq, ite_not]

end FunctionValues

/-! ### The template of functions -/

namespace Config.Expr

/-- A constant text. -/
abbrev word (s : String) : Expr := literal (.string s)

/-- A variable. -/
abbrev var (name : String) : Expr := reference name []

/-- The texts of a list, with commas between them. -/
abbrev commas (name : String) : Expr := call "join" [template [word ", "], var name] false

/-- Some parts of a text, if a condition holds. -/
abbrev when (condition : Expr) (parts : List Expr) : Expr :=
  conditional condition (template parts) (template [word ""])

/-- Some parts of a text for each text of a list, which a variable stands for. -/
abbrev forEach (name list : String) (parts : List Expr) : Expr :=
  joined (loop none name (var list) none (template parts) none false)

/-- The variable is not the empty text. -/
abbrev isGiven (name : String) : Expr := binary .notEqual (var name) (template [word ""])

/-- The list has texts. -/
abbrev hasTexts (name : String) : Expr :=
  binary .greater (call "length" [var name] false) (literal (.number (.finite (.zero false 512))))

/-- The body of a function does not emit the event. -/
abbrev lacksEmit (event : String) : Expr :=
  binary .equal (call "replace"
    [var "body", template [word "emit ", var event, word "("], template [word ""]] false)
    (var "body")

/-- The remarks on the events of a function. -/
abbrev remarksEmit : Expr :=
  forEach "e" "events" [
    word "", when (lacksEmit "e") [word "    // emits ", var "e", word "\n"], word ""]

/-- The body of a function. -/
abbrev insideEmit : Expr :=
  when (isGiven "body") [
    word "    ", call "indent" [literal (.number (.finite ⟨false, 1, 2, 512⟩)), var "body"] false,
    word "\n"]

/-- How a function is written. -/
def functionEmit : Expr :=
  template [
    word "function ", var "name", word "(", commas "params", word ") ", var "visibility",
    when (isGiven "mutability") [word " ", var "mutability"],
    when (var "virtual") [word " virtual"],
    when (var "override") [word " override"],
    forEach "m" "modifiers" [word " ", var "m"],
    when (hasTexts "returns") [word " returns (", commas "returns", word ")"],
    word " \x7b\n", remarksEmit, word "", insideEmit, word "\x7d\n"]

section

variable {s : Scope} {c : Expr} {parts : List Expr} {b : Bag} {name list t : String}
  {ts : List String} {v : Value}

theorem yields_var (hs : s.bindings = some b) (hv : b.lookup name = some v) :
    (var name).Yields s v := by
  apply yields_reference
  rw [lookupVariable, hs]
  dsimp only
  rw [hv]

theorem spells_word (s : Scope) (t : String) : (word t).Spells s t := (yields_literal s _).spells

theorem yields_empty (s : Scope) : (template [word ""]).Yields s (.string "") :=
  yields_template (.cons (yields_literal s _) .nil)

theorem spells_when {x : Bool} (hc : c.Yields s (.bool x)) (h : List.Forall₂ (Spells s) parts ts) :
    (when c parts).Spells s (if x then String.join ts else "") :=
  spells_conditional hc (spells_template h) (yields_empty s).spells

theorem spells_forEach {f : String → List String}
    (hlist : (var list).Yields s (.list .string (ts.map .string)))
    (h : ∀ i, ∀ t ∈ ts, List.Forall₂ (Spells (s.enterLoop none name i (.string t))) parts (f t)) :
    (forEach name list parts).Spells s (String.join (ts.map fun t => String.join (f t))) :=
  spells_loop hlist fun i t ht => spells_template (h i t ht)

theorem yields_isGiven (h : (var name).Yields s (.string t)) :
    (isGiven name).Yields s (.bool (t != "")) := yields_notEqual h (yields_empty s)

variable (hs : s.functions = some library)
include hs

theorem yields_commas (h : (var name).Yields s (.list .string (ts.map .string))) :
    (commas name).Yields s (.text (", ".intercalate ts)) :=
  yields_join hs (yields_template (.cons (yields_literal s _) .nil)) h

theorem yields_hasTexts (h : (var name).Yields s (.list .string (ts.map .string))) :
    (hasTexts name).Yields s (.bool (decide (0 < ts.length))) :=
  yields_greater_zero (yields_length hs h)

theorem yields_lacksEmit {event e body : String} (hevent : (var event).Yields s (.text e))
    (hbody : (var "body").Yields s (.text body)) : (lacksEmit event).Yields s
      (.bool (decide ¬Text.Emits (Text.normalize body) (Text.normalize e))) := by
  have hpattern : (template [word "emit ", var event, word "("]).Yields s
      (.string ("emit " ++ Text.normalize e ++ "(")) := by
    have h := yields_template_of_spells
      (.cons (spells_word s "emit ") (.cons hevent.spells_text (.cons (spells_word s "(") .nil)))
    rwa [Value.text, String.join_cons, String.join_cons, String.join_cons, String.join_nil,
      String.append_empty, ← String.append_assoc, Text.normalize_emit] at h
  have hequal := yields_equal (yields_replace hs hbody hpattern (yields_empty s)) hbody
  have hiff : Text.normalize (Text.replaceAll ("emit " ++ Text.normalize e ++ "(") ""
      (Text.normalize body)) = Text.normalize (Text.normalize body) ↔
      ¬Text.Emits (Text.normalize body) (Text.normalize e) :=
    Text.normalize_replaceAll_eq_iff (by simp) _
  rw [Text.normalize_normalize] at hiff
  rwa [← decide_eq_decide.mpr hiff, ← beq_eq_decide]

end

/-! What the template spells -/

theorem bindings_enterLoop {s : Scope} {b : Bag} (hs : s.bindings = some b) (name : String)
    (i v : Value) : (s.enterLoop none name i v).bindings = some ((name, v) :: b) := by
  rw [Scope.enterLoop, Scope.bind, hs]
  rfl

theorem yields_texts {s : Scope} {b : Bag} {name : String} {ts : List String}
    (hs : s.bindings = some b) (hv : b.lookup name = some (.texts ts)) :
    (var name).Yields s (.list .string ((ts.map Text.normalize).map .string)) := by
  rw [List.map_map]
  exact yields_var hs hv

section

variable {v : FunctionValues} {b : Bag} {s : Scope} (h : v.BoundIn b) (hb : s.bindings = some b)
include h hb

theorem spells_modifiers : (forEach "m" "modifiers" [word " ", var "m"]).Spells s
    (String.join (v.normalized.modifiers.map fun m => " " ++ m)) := by
  have hround : ∀ i, ∀ m ∈ v.normalized.modifiers,
      List.Forall₂ (Spells (s.enterLoop none "m" i (.string m))) [word " ", var "m"] [" ", m] :=
    fun i m _ => .cons (spells_word _ " ")
      (.cons (yields_var (bindings_enterLoop hb _ _ _) List.lookup_cons_self).spells .nil)
  have hloop := spells_forEach (yields_texts hb h.modifiers) hround
  simpa [FunctionValues.normalized] using hloop

variable (hs : s.functions = some library)
include hs

theorem spells_remarks : remarksEmit.Spells s v.normalized.remarks := by
  have hround : ∀ i, ∀ e ∈ v.normalized.events, List.Forall₂
      (Spells (s.enterLoop none "e" i (.string e)))
      [word "", when (lacksEmit "e") [word "    // emits ", var "e", word "\n"], word ""]
      ["", if decide ¬Text.Emits v.normalized.body e then String.join ["    // emits ", e, "\n"]
        else "", ""] := by
    intro i e he
    obtain ⟨event, -, rfl⟩ := List.mem_map.mp he
    have hinner := bindings_enterLoop hb "e" i (.text event)
    have hevent : (var "e").Yields (s.enterLoop none "e" i (.text event)) (.text event) :=
      yields_var hinner List.lookup_cons_self
    have hbody : (var "body").Yields (s.enterLoop none "e" i (.text event)) (.text v.body) :=
      yields_var hinner h.body
    have hfunctions : (s.enterLoop none "e" i (.text event)).functions = some library := hs
    have hwhen := spells_when (yields_lacksEmit hfunctions hevent hbody)
      (.cons (spells_word _ "    // emits ")
        (.cons hevent.spells (.cons (spells_word _ "\n") .nil)))
    exact .cons (spells_word _ "") (.cons hwhen (.cons (spells_word _ "") .nil))
  have hremark : ∀ e, String.join ["", if decide ¬Text.Emits v.normalized.body e
      then String.join ["    // emits ", e, "\n"] else "", ""] =
        if Text.Emits v.normalized.body e then "" else "    // emits " ++ e ++ "\n" := by
    intro e
    by_cases hemits : Text.Emits v.normalized.body e
    · simp [hemits]
    · simp [hemits, String.append_assoc]
  have hloop := spells_forEach (yields_texts hb h.events) hround
  simp only [hremark] at hloop
  exact hloop

theorem spells_inside : insideEmit.Spells s v.normalized.inside := by
  have hbody : (var "body").Yields s (.string v.normalized.body) := yields_var hb h.body
  have hindent := yields_indent hs (n := .finite ⟨false, 1, 2, 512⟩) (i := 4) rfl (by decide)
    (yields_literal s _) hbody
  have hwhen := spells_when (yields_isGiven hbody) (.cons (spells_word s "    ")
    (.cons hindent.spells_text (.cons (spells_word s "\n") .nil)))
  rw [Text.indentLines_eq] at hwhen
  by_cases hempty : v.normalized.body = ""
  · simpa [FunctionValues.inside, hempty] using hwhen
  · simpa [FunctionValues.inside, hempty, String.append_assoc] using hwhen

/-- **The template of functions yields their text.** -/
theorem yields_functionEmit : functionEmit.Yields s (.text v.normalized.text) := by
  have hmutability : (var "mutability").Yields s (.string v.normalized.mutability) :=
    yields_var hb h.mutability
  have hreturns := yields_texts hb h.returns
  have hparts := yields_template_of_spells
    (.cons (spells_word s "function ")
    (.cons (yields_var hb h.name).spells
    (.cons (spells_word s "(")
    (.cons (yields_commas hs (yields_texts hb h.params)).spells_text
    (.cons (spells_word s ") ")
    (.cons (yields_var hb h.visibility).spells
    (.cons (spells_when (yields_isGiven hmutability)
      (.cons (spells_word s " ") (.cons hmutability.spells .nil)))
    (.cons (spells_when (yields_var hb h.isVirtual) (.cons (spells_word s " virtual") .nil))
    (.cons (spells_when (yields_var hb h.isOverride) (.cons (spells_word s " override") .nil))
    (.cons (spells_modifiers h hb)
    (.cons (spells_when (yields_hasTexts hs hreturns) (.cons (spells_word s " returns (")
      (.cons (yields_commas hs hreturns).spells_text (.cons (spells_word s ")") .nil))))
    (.cons (spells_word s " \x7b\n")
    (.cons (spells_remarks h hb hs)
    (.cons (spells_word s "")
    (.cons (spells_inside h hb hs)
    (.cons (spells_word s "\x7d\n") .nil))))))))))))))))
  rw [← v.normalized.join_parts]
  exact hparts

end

end Config.Expr

/-! ### Catalogs -/

/-- A template with the expression of functions adds their text to a contract. -/
theorem Template.render_of_functionEmit {t : Template} (hemit : t.emit = .functionEmit)
    (himports : t.imports = .null) (hinherits : t.inherits = .null) {v : FunctionValues} {b : Bag}
    (hb : v.BoundIn b) :
    t.render b = .ok ⟨Text.normalize v.normalized.text, [], []⟩ := by
  have hyields : t.emit.eval (templateScope b) = ⟨.text v.normalized.text, []⟩ :=
    hemit ▸ Expr.yields_functionEmit hb rfl rfl
  have hbody : t.renderBody (templateScope b) = .ok (Text.normalize v.normalized.text) := by
    rw [renderBody, hyields]
    rfl
  have hnone : evalTexts .null (templateScope b) = .ok [] := rfl
  rw [render, hbody, himports, hinherits, hnone]
  rfl

/-- Whether a catalog has the template of functions. -/
def Catalog.writesFunctions (c : Catalog) : Bool :=
  match c.template? "function" with
  | some t => t.emit.agrees .functionEmit && t.imports.agrees .null && t.inherits.agrees .null
  | none => false

/-- A catalog that has the template of functions adds their text to a contract. -/
theorem Catalog.exists_render_of_writesFunctions {c : Catalog} (h : c.writesFunctions = true)
    {v : FunctionValues} {b : Bag} (hb : v.BoundIn b) : ∃ t, c.template? "function" = some t ∧
      t.render b = .ok ⟨Text.normalize v.normalized.text, [], []⟩ := by
  rw [writesFunctions] at h
  split at h
  next t ht =>
    simp only [Bool.and_eq_true] at h
    obtain ⟨⟨hemit, himports⟩, hinherits⟩ := h
    exact ⟨t, ht, Template.render_of_functionEmit (Expr.eq_of_agrees hemit)
      (Expr.eq_of_agrees himports) (Expr.eq_of_agrees hinherits) hb⟩
  next => cases h

end SolidityCanvas
