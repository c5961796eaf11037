/-! # Integers of 64 bits

Results are worked out exactly and then fitted into 64 bits, so that an overflow is seen and never
wraps around.

- `Fits` — 64 bits hold the number.
- `fit?` — the integer of 64 bits, if the number fits.
- `quotient?`, `rest?` — division towards zero, where the quotient fits.
-/

namespace DiceScript.Number

/-- A number that 64 bits hold: at least `-2 ^ 63` and below `2 ^ 63`. -/
def Fits (n : Int) : Prop := -9223372036854775808 ≤ n ∧ n < 9223372036854775808

instance (n : Int) : Decidable (Fits n) := inferInstanceAs (Decidable (_ ∧ _))

theorem fits_toInt (n : Int64) : Fits n.toInt := ⟨n.le_toInt, n.toInt_lt⟩

def fit? (n : Int) : Option Int64 :=
  if Fits n then some (Int64.ofInt n) else none

theorem fit?_toInt (n : Int64) : fit? n.toInt = some n := by
  rw [fit?, if_pos (fits_toInt n), Int64.ofInt_toInt]

/-! ## Division towards zero -/

/-- The quotient towards zero; none when the divisor is zero or 64 bits do not hold it. -/
def quotient? (a b : Int64) : Option Int64 :=
  if b = 0 then none else fit? (a.toInt.tdiv b.toInt)

/-- What the quotient towards zero leaves; none where there is no quotient. -/
def rest? (a b : Int64) : Option Int64 := (quotient? a b).map fun _ => a % b

end DiceScript.Number
