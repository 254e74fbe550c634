/-
Reading bodies of a known form.

A form names the attributes and blocks that a body may have. Reading collects
all faults: of the form, of the values, and of what is made of them later.
`Decode.result` gives what was read if there were none.

Attributes are constants: they are evaluated without variables and functions.

Faults are collected on the side, so that what is read does not depend on them
(`Decode.Gives`).
-/
import SolidityCanvas.Config.Eval

namespace SolidityCanvas.Config

/-- A reading that collects faults. -/
abbrev Decode (α : Type) : Type := StateM (List Fault) α

namespace Decode

/-- Reports a fault. -/
def report (f : Fault) : Decode Unit := modify (· ++ [f])

/-- What was read, or the faults. -/
def result {α : Type} (d : Decode α) : Except (List Fault) α :=
  let (a, faults) := d.run []
  if faults.isEmpty then .ok a else .error faults

end Decode

/-- A kind of block and the names of its labels. -/
structure BlockForm where
  type : String
  labels : List String

/-- The attributes and blocks that a body may have. -/
structure BodyForm where
  required : List String := []
  optional : List String := []
  blocks : List BlockForm := []

namespace Body

/-- The faults of the labels of a block. -/
def labelFaults (form : BlockForm) (b : Block) : List BodyFault :=
  if b.labels.length > form.labels.length then [.extraLabel b.type]
  else match form.labels.drop b.labels.length with
    | [] => []
    | label :: _ => [.missingLabel label b.type]

/-- What is wrong with the form of a body. -/
def formFaults (b : Body) (form : BodyForm) : List BodyFault :=
  let missing := form.required.filter fun n => !b.attributes.any (·.name == n)
  let known := form.required ++ form.optional
  let extra := b.attributes.filter fun a => !known.contains a.name
  let strange := b.blocks.filter fun k => !form.blocks.any (·.type == k.type)
  missing.map (fun _ => .missingArgument) ++
    b.blocks.flatMap (fun k => match form.blocks.find? (·.type == k.type) with
      | some f => labelFaults f k
      | none => []) ++
    extra.map (fun _ => .unsupportedArgument) ++ strange.map fun _ => .unsupportedBlock

/-- Reports what is wrong with the form of a body. -/
def checkForm (b : Body) (form : BodyForm) : Decode Unit :=
  (b.formFaults form).forM fun f => Decode.report (.body f)

/-- The blocks of a kind that have the right number of labels. -/
def blocksOf (b : Body) (form : BlockForm) : List Block :=
  b.blocks.filter fun k => k.type == form.type && k.labels.length == form.labels.length

/-- The places of the blocks of a type in a body that may hold one such block.
The last one counts, and each after the first is a fault. -/
def uniqueBlock (blocks : List Block) (type : String) : Option Nat × List (Nat × Fault) :=
  let places := (blocks.zipIdx.filter fun (k, _) => k.type == type).map (·.2)
  let name := "\"" ++ type ++ "\""
  (places.getLast?, places.tail.map fun i =>
    (i, .meaning ("Duplicate " ++ name ++ " block") ("Only one " ++ name ++ " block is allowed.")))

/-- The expression of an attribute, `null` if it is absent. -/
def expr (b : Body) (name : String) : Expr :=
  match b.attributes.find? (·.name == name) with
  | some a => a.value
  | none => .null

/-- The value of a constant expression. -/
def constant (e : Expr) : Decode Value := do
  let o := e.eval {}
  o.faults.forM fun f => Decode.report (.eval f)
  return o.value

/-- Reads an attribute of a type. `blank` stands for one that is absent or
has no suitable value. -/
def value {α : Type} (b : Body) (name : String) (t : ValueType) (read : Value → Option α)
    (blank : α) : Decode α :=
  match b.attributes.find? (·.name == name) with
  | none => return blank
  | some a => do
    let v ← constant a.value
    match (v.convert? t).bind read with
    | some x => return x
    | none =>
      Decode.report (.body .unsuitableValue)
      return blank

/-- Reads a text. -/
def text (b : Body) (name : String) : Decode String :=
  b.value name .string (fun | .string s => some s | _ => none) ""

/-- Reads a truth value. -/
def flag (b : Body) (name : String) : Decode Bool :=
  b.value name .bool (fun | .bool x => some x | _ => none) false

/-- Reads a whole number of 64 bits. -/
def whole (b : Body) (name : String) : Decode Int64 :=
  b.value name .number (fun
    | .number n => n.toInt?.bind fun i =>
      if -9223372036854775808 ≤ i && i ≤ 9223372036854775807 then some (Int64.ofInt i) else none
    | _ => none) 0

/-- Reads a list of texts; `null` is the empty list. -/
def texts (b : Body) (name : String) : Decode (List String) :=
  b.value name (.list .string) (fun
    | .list _ items => items.mapM fun | .string s => some s | _ => none
    | .null _ => some []
    | _ => none) []

end Body

/-! ### What a reading gives -/

namespace Decode

variable {α β : Type} {P : α → Prop} {Q : β → Prop}

/-- Whatever was reported before, what is read has a property. -/
def Gives (d : Decode α) (P : α → Prop) : Prop := ∀ faults, P (d.run faults).1

theorem gives_pure {a : α} (h : P a) : Gives (pure a) P := fun _ => h

theorem Gives.bind {d : Decode α} {f : α → Decode β} (hd : Gives d P)
    (hf : ∀ a, P a → Gives (f a) Q) : Gives (d >>= f) Q :=
  fun faults => hf _ (hd faults) _

/-- What does not depend on the first step. -/
theorem gives_bind {d : Decode α} {f : α → Decode β} (hf : ∀ a, Gives (f a) Q) :
    Gives (d >>= f) Q := fun _ => hf _ _

theorem gives_mapM {f : α → Decode β} : ∀ {l : List α}, (∀ a ∈ l, Gives (f a) Q) →
    Gives (l.mapM f) fun bs => ∀ b ∈ bs, Q b := by
  intro l
  induction l with
  | nil => exact fun _ => gives_pure fun _ hb => absurd hb List.not_mem_nil
  | cons a l ih =>
    intro h
    rw [List.mapM_cons]
    refine (h a List.mem_cons_self).bind fun b hb => ?_
    refine (ih fun x hx => h x (List.mem_cons_of_mem _ hx)).bind fun bs hbs => ?_
    exact gives_pure (List.forall_mem_cons.mpr ⟨hb, hbs⟩)

theorem Gives.of_result {d : Decode α} (hd : Gives d P) {a : α} (h : d.result = .ok a) : P a := by
  have hrun := hd []
  rw [result] at h
  generalize d.run [] = read at h hrun
  obtain ⟨x, faults⟩ := read
  dsimp only at h
  by_cases hfaults : faults.isEmpty = true
  · rw [if_pos hfaults] at h
    exact Except.ok.inj h ▸ hrun
  · rw [if_neg hfaults] at h
    exact absurd h (by simp)

end Decode

end SolidityCanvas.Config
