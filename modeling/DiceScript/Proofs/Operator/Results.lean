import DiceScript.Operator.Apply
import DiceScript.Proofs.Number.Packing
import DiceScript.Proofs.Parts

/-!
# What operators yield

Every operator but `concat` makes its result anew: an integer, a truth value or a float that has been
found finite. `concat` makes a text, or a list out of what its operands hold.

- `Operator.Computed` — a value made anew.
- `Operator.computes_binary` — every operator but `concat` yields such a value.
- `Operator.computes_unary` — so do the operators on one operand.
- `Operator.all_binary` — a property that all parts of the operands have, and that values made anew
  have, holds of all parts of the result.
-/

namespace DiceScript

namespace Operator

/-! ## Results made anew -/

/-- A value made anew: an integer, a truth value or a finite float. -/
def Computed : Value → Prop
  | .integer _ => True
  | .boolean _ => True
  | .float x => x.isFinite
  | _ => False

def Computes (result : Except Cause Value) : Prop := ∀ v, result = .ok v → Computed v

theorem computes_error (cause : Cause) : Computes (.error cause) := by
  intro v h
  cases h

theorem computes_refuse (op : BinaryOp) (l r : Value) : Computes (refuse op l r) :=
  computes_error _

theorem computes_boolean (b : Bool) : Computes (.ok (.boolean b)) := by
  rintro v ⟨⟩
  trivial

theorem computes_integer (n : Int64) : Computes (.ok (.integer n)) := by
  rintro v ⟨⟩
  trivial

theorem computes_exact (op : BinaryOp) (n : Int) : Computes (exact op n) := by
  unfold exact
  split
  · exact computes_integer _
  · exact computes_error _

theorem computes_finite (op : BinaryOp) (x : Float) : Computes (finite op x) := by
  unfold finite
  split
  · rename_i hx
    rintro v ⟨⟩
    exact hx
  · exact computes_error _

theorem computes_logical (op : BinaryOp) (f : Bool → Bool → Bool) (l r : Value) :
    Computes (logical op f l r) := by
  unfold logical
  split
  · exact computes_boolean _
  · exact computes_refuse op _ _

theorem computes_equality (op : BinaryOp) (negated : Bool) (l r : Value) :
    Computes (equality op negated l r) := by
  unfold equality
  split
  · exact computes_boolean _
  · exact computes_refuse op _ _

theorem computes_ordering (op : BinaryOp) (accept : Ordering → Bool) (l r : Value) :
    Computes (ordering op accept l r) := by
  unfold ordering
  split
  · exact computes_boolean _
  · exact computes_boolean _
  · split
    · exact computes_refuse op _ _
    · split
      · exact computes_boolean _
      · exact computes_error _

theorem computes_shift (op : BinaryOp) (l r : Value) : Computes (shift op l r) := by
  unfold shift
  split
  · split_ifs
    · exact computes_error _
    · exact computes_integer _
    · exact computes_exact op _
  · exact computes_refuse op _ _

theorem computes_arithmetic (op : BinaryOp) (onInt : Int → Int → Int)
    (onFloat : Float → Float → Float) (l r : Value) :
    Computes (arithmetic op onInt onFloat l r) := by
  unfold arithmetic
  split
  · exact computes_exact op _
  · split
    · exact computes_finite op _
    · exact computes_refuse op _ _

theorem computes_divide (l r : Value) : Computes (divide l r) := by
  unfold divide
  split
  · exact computes_refuse _ _ _
  · split
    · exact computes_error _
    · exact computes_finite _ _

theorem computes_floorDivide (l r : Value) : Computes (floorDivide l r) := by
  unfold floorDivide
  split
  · split
    · exact computes_error _
    · split
      · exact computes_error _
      · exact computes_integer _
  · split
    · exact computes_refuse _ _ _
    · split
      · exact computes_error _
      · exact computes_finite _ _

theorem computes_remainder (l r : Value) : Computes (remainder l r) := by
  unfold remainder
  split
  · split
    · exact computes_error _
    · split
      · exact computes_error _
      · exact computes_integer _
  · split
    · exact computes_refuse _ _ _
    · dsimp only
      split_ifs
      · exact computes_error _
      · exact computes_finite _ _
      · exact computes_finite _ _

theorem computes_floatPower (limit : UInt64) (base exponent : Value) :
    Computes (floatPower limit base exponent) := by
  unfold floatPower
  split
  · exact computes_refuse _ _ _
  · split_ifs
    · exact computes_error _
    · exact computes_error _
    · exact computes_finite _ _

theorem computes_power (limit : UInt64) (base exponent : Value) :
    Computes (power limit base exponent) := by
  unfold power
  split
  · split_ifs
    · exact computes_floatPower _ _ _
    · exact computes_error _
    · generalize powerSteps _ _ _ _ _ = product
      cases product with
      | error cause => exact computes_error cause
      | ok n => exact computes_integer n
  · exact computes_floatPower _ _ _

theorem computes_logarithm (limit : UInt64) (number base : Value) :
    Computes (logarithm limit number base) := by
  unfold logarithm
  split
  · exact computes_refuse _ _ _
  · split_ifs
    · exact computes_error _
    · exact computes_error _
    · exact computes_error _
    · exact computes_finite _ _

/-- Only `concat` passes on what its operands hold. -/
theorem computes_binary (limits : Limits) {op : BinaryOp} (hop : op ≠ .concat) (l r : Value) :
    Computes (binary limits op l r) := by
  unfold binary
  cases op with
  | concat => exact absurd rfl hop
  | or => exact computes_logical _ _ l r
  | xor => exact computes_logical _ _ l r
  | and => exact computes_logical _ _ l r
  | eq => exact computes_equality _ _ l r
  | ne => exact computes_equality _ _ l r
  | gt => exact computes_ordering _ _ l r
  | ge => exact computes_ordering _ _ l r
  | le => exact computes_ordering _ _ l r
  | lt => exact computes_ordering _ _ l r
  | shl => exact computes_shift _ l r
  | shr => exact computes_shift _ l r
  | add => exact computes_arithmetic _ _ _ l r
  | sub => exact computes_arithmetic _ _ _ l r
  | mul => exact computes_arithmetic _ _ _ l r
  | div => exact computes_divide l r
  | floorDiv => exact computes_floorDivide l r
  | rem => exact computes_remainder l r
  | pow => exact computes_power _ l r
  | log => exact computes_logarithm _ l r

/-! ## Properties of all parts -/

section Parts

variable {p : Value → Prop}

theorem all_of_computed {v : Value} (h : Computed v) (hp : ∀ u, Computed u → p u) : v.All p := by
  cases v with
  | list items => exact absurd h id
  | string s => exact absurd h id
  | function f => exact absurd h id
  | undefined => exact absurd h id
  | integer n => exact Value.all_integer.mpr (hp _ h)
  | float x => exact Value.all_float.mpr (hp _ h)
  | boolean b => exact Value.all_boolean.mpr (hp _ h)

/-- Appending makes a text, or a list of what was in the operands. -/
theorem all_concat {l r v : Value} (hstring : ∀ s, p (.string s)) (hlist : ∀ items, p (.list items))
    (hl : l.All p) (hr : r.All p) (h : concat l r = .ok v) : v.All p := by
  unfold concat at h
  split at h
  · obtain rfl := Except.ok.inj h
    exact Value.all_string.mpr (hstring _)
  · rename_i items more
    obtain rfl := Except.ok.inj h
    rw [Value.all_list] at hl hr ⊢
    refine ⟨hlist _, fun v hv => ?_⟩
    rcases List.mem_append.mp hv with hv | hv
    · exact hl.2 v hv
    · exact hr.2 v hv
  · rename_i items u _
    obtain rfl := Except.ok.inj h
    rw [Value.all_list] at hl ⊢
    refine ⟨hlist _, fun v hv => ?_⟩
    rcases List.mem_append.mp hv with hv | hv
    · exact hl.2 v hv
    · rw [List.mem_singleton.mp hv]
      exact hr
  · cases h

theorem all_binary {limits : Limits} {op : BinaryOp} {l r v : Value}
    (hp : ∀ u, Computed u → p u) (hstring : ∀ s, p (.string s)) (hlist : ∀ items, p (.list items))
    (hl : l.All p) (hr : r.All p) (h : binary limits op l r = .ok v) : v.All p := by
  by_cases hop : op = .concat
  · subst hop
    exact all_concat hstring hlist hl hr h
  · exact all_of_computed (computes_binary limits hop l r v h) hp

/-- The opposite of a float is not checked: that it is finite comes from the operand. -/
theorem computes_unary {op : UnaryOp} {u v : Value} (hu : ∀ x, u = .float x → x.isFinite)
    (h : unary op u = .ok v) : Computed v := by
  unfold unary at h
  split at h
  · obtain rfl := Except.ok.inj h
    trivial
  · split at h
    · obtain rfl := Except.ok.inj h
      trivial
    · cases h
  · rename_i x
    obtain rfl := Except.ok.inj h
    exact Number.Binary.isFinite_neg (hu x rfl)
  · obtain rfl := Except.ok.inj h
    trivial
  · rename_i x
    obtain rfl := Except.ok.inj h
    exact hu x rfl
  · cases h

end Parts

end Operator

end DiceScript
