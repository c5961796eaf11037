import DiceScript.Operator.Comparison
import Mathlib

/-!
# The order of floats

Of two floats that are numbers exactly one of less, equal and greater holds, and the other way round it
is the opposite. Only what is not a number has no order, not even with itself. The two zeros are equal.

- `compare_swap`, `compare_isSome`, `compare_self` — for the numbers that floats stand for.
- `floatOrder?_eq` — the order that is found by less and equal is theirs.
-/

namespace DiceScript.Number

open Float.Model (UnpackedFloat)
open Float.Model.UnpackedFloat (Sign)

/-! ## Numbers that floats stand for -/

theorem swap_compare_sign (s t : Sign) : (compare s t).swap = compare t s := by
  cases s <;> cases t <;> rfl

theorem compare_swap (a b : UnpackedFloat) : (a.compare b).map Ordering.swap = b.compare a := by
  cases a with
  | notANumber => cases b <;> simp [UnpackedFloat.compare]
  | infinity s => cases s <;> cases b <;> simp [UnpackedFloat.compare, swap_compare_sign]
  | zero s =>
    cases b with
    | finite t => cases t <;> simp [UnpackedFloat.compare]
    | infinity t => cases t <;> simp [UnpackedFloat.compare]
    | _ => simp [UnpackedFloat.compare]
  | finite s =>
    -- Of two negative numbers the one with the smaller parts is the greater.
    cases s <;> cases b with
    | finite t =>
      cases t <;> simp [UnpackedFloat.compare, Ordering.swap_then, Nat.compare_swap, Int.compare_swap]
    | infinity t => cases t <;> simp [UnpackedFloat.compare]
    | _ => simp [UnpackedFloat.compare]

theorem compare_isSome {a b : UnpackedFloat} (ha : a.isNaN = false) (hb : b.isNaN = false) :
    (a.compare b).isSome = true := by
  cases a with
  | notANumber => cases ha
  | infinity s => cases s <;> cases b <;> simp_all [UnpackedFloat.compare, UnpackedFloat.isNaN]
  | zero s =>
    cases b with
    | notANumber => cases hb
    | finite t => cases t <;> simp [UnpackedFloat.compare]
    | infinity t => cases t <;> simp [UnpackedFloat.compare]
    | zero t => simp [UnpackedFloat.compare]
  | finite s =>
    cases s <;> cases b with
    | notANumber => cases hb
    | finite t => cases t <;> simp [UnpackedFloat.compare]
    | infinity t => cases t <;> simp [UnpackedFloat.compare]
    | zero t => simp [UnpackedFloat.compare]

theorem compare_self {a : UnpackedFloat} (ha : a.isNaN = false) : a.compare a = some .eq := by
  cases a with
  | notANumber => cases ha
  | infinity s => cases s <;> rfl
  | zero s => rfl
  | finite s => cases s <;> simp [UnpackedFloat.compare]

/-! ## Floats -/

def order? (a b : Float) : Option Ordering := a.toModel.unpack.compare b.toModel.unpack

theorem lt_iff (a b : Float) : a < b ↔ order? a b = some .lt := by
  show decide (a.toModel.unpack.lt b.toModel.unpack = true) = true ↔ _
  rw [decide_eq_true_eq, UnpackedFloat.lt, beq_iff_eq, order?]

theorem beq_iff (a b : Float) : (a == b) = true ↔ order? a b = some .eq := by
  show a.toModel.unpack.beq b.toModel.unpack = true ↔ _
  rw [UnpackedFloat.beq, beq_iff_eq, order?]

theorem swap_order? (a b : Float) : (order? a b).map Ordering.swap = order? b a := compare_swap _ _

/-- Two floats are equal in either order. -/
theorem beq_comm (a b : Float) : (a == b) = (b == a) := by
  rw [Bool.eq_iff_iff, beq_iff, beq_iff, ← swap_order? b a]
  cases order? b a with
  | none => simp
  | some order => cases order <;> simp

theorem beq_self {a : Float} (ha : a.isNaN = false) : (a == a) = true :=
  (beq_iff a a).mpr (compare_self ha)

theorem exists_order {a b : Float} (ha : a.isNaN = false) (hb : b.isNaN = false) :
    ∃ order, order? a b = some order := Option.isSome_iff_exists.mp (compare_isSome ha hb)

theorem isNaN_of_isFinite {a : Float} (h : a.isFinite = true) : a.isNaN = false := by
  change a.toModel.unpack.isFinite = true at h
  show a.toModel.unpack.isNaN = false
  cases hunpacked : a.toModel.unpack <;>
    simp_all [UnpackedFloat.isFinite, UnpackedFloat.isNaN]

end DiceScript.Number

namespace DiceScript.Operator

open Number (order? lt_iff beq_iff swap_order?)

/-- The order that is found by less and equal is that of the numbers. -/
theorem floatOrder?_eq (a b : Float) : floatOrder? a b = order? a b := by
  have hswap := swap_order? a b
  unfold floatOrder?
  simp only [lt_iff, beq_iff, ← hswap]
  cases order? a b with
  | none => rfl
  | some order => cases order <;> rfl

end DiceScript.Operator
