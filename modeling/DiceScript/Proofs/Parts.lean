import DiceScript.Value.Codec

/-!
# Properties of every part

A property that holds of a document and of everything in it, of a program and of everything in it,
bodies of definitions included, or of a value and of the items of its lists at any depth.

- `Json.All` — a document and everything in it.
- `Node.parts` — the nodes directly in a node.
- `Node.All` — a node and everything in it.
- `Value.All` — a value and the items of its lists.
-/

namespace DiceScript

/-! ## Documents -/

namespace Json

def parts : Json → List Json
  | .arr items => items
  | .obj members => members.map (·.2)
  | _ => []

/-- `p` holds of a document and of everything in it. -/
inductive All (p : Json → Prop) : Json → Prop where
  | intro {j : Json} : p j → (∀ k ∈ j.parts, All p k) → All p j

variable {p : Json → Prop} {j : Json}

theorem all_iff : All p j ↔ p j ∧ ∀ k ∈ j.parts, All p k := by
  constructor
  · rintro ⟨hp, hparts⟩
    exact ⟨hp, hparts⟩
  · rintro ⟨hp, hparts⟩
    exact .intro hp hparts

theorem All.self (h : All p j) : p j := (all_iff.mp h).1

theorem All.parts (h : All p j) : ∀ k ∈ j.parts, All p k := (all_iff.mp h).2

end Json

/-! ## Nodes -/

namespace Node

def parts : Node → List Node
  | .list items => items
  | .group inner => [inner]
  | .binary _ left right => [left, right]
  | .unary _ operand => [operand]
  | .dice count sides _ => count.toList ++ [sides]
  | .block statements => statements
  | .assign _ value => [value]
  | .qualifiedAssign _ _ value => [value]
  | .print value => [value]
  | .branch condition consequent alternative => condition :: (consequent ++ alternative)
  | .whileLoop condition body => condition :: body
  | .doWhile body condition => condition :: body
  | .define _ _ body _ => body
  | .call _ _ args => args
  | _ => []

inductive All (p : Node → Prop) : Node → Prop where
  | intro {n : Node} : p n → (∀ k ∈ n.parts, All p k) → All p n

namespace All

variable {p : Node → Prop} {n : Node}

theorem self (h : All p n) : p n := by
  cases h with
  | intro hp _ => exact hp

theorem parts (h : All p n) : ∀ k ∈ n.parts, All p k := by
  cases h with
  | intro _ hk => exact hk

end All

end Node

/-! ## Values -/

namespace Value

mutual

/-- `p` holds of a value and of the items of its lists at any depth. -/
def All (p : Value → Prop) : Value → Prop
  | .list items => p (.list items) ∧ AllItems p items
  | v => p v

def AllItems (p : Value → Prop) : List Value → Prop
  | [] => True
  | v :: rest => All p v ∧ AllItems p rest

end

variable {p : Value → Prop}

theorem allItems_iff {items : List Value} : AllItems p items ↔ ∀ v ∈ items, All p v := by
  induction items with
  | nil => simp [AllItems]
  | cons v rest ih => simp [AllItems, ih]

@[simp] theorem all_list {items : List Value} :
    All p (.list items) ↔ p (.list items) ∧ ∀ v ∈ items, All p v := by
  rw [All, allItems_iff]

@[simp] theorem all_integer {n : Int64} : All p (.integer n) ↔ p (.integer n) := by
  rw [All]
  simp

@[simp] theorem all_float {x : Float} : All p (.float x) ↔ p (.float x) := by
  rw [All]
  simp

@[simp] theorem all_string {s : String} : All p (.string s) ↔ p (.string s) := by
  rw [All]
  simp

@[simp] theorem all_boolean {b : Bool} : All p (.boolean b) ↔ p (.boolean b) := by
  rw [All]
  simp

@[simp] theorem all_function {f : Function} : All p (.function f) ↔ p (.function f) := by
  rw [All]
  simp

@[simp] theorem all_undefined : All p .undefined ↔ p .undefined := by
  rw [All]
  simp

theorem All.self {v : Value} (h : All p v) : p v := by
  cases v <;> simp_all

end Value

end DiceScript
