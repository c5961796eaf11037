import DiceScript.Number.Shortest
import DiceScript.Proofs.Number.Rounding

/-!
# The shortest decimal reads back

Whatever grid the search for the shortest decimal stops at, the decimal it gives lies in the interval
of the float, so reading it gives the float again. On the grids it looks at this is checked. On the
one after the last, which has eighteen digits, the distance between two decimals is smaller than the
distance from the float to either end of its interval.

- `Interval.Contains` — the rational numbers in an interval.
- `Decimal.value` — the rational number of a decimal.
- `rounds_shortest` — the shortest decimal lies in the interval.
-/

namespace DiceScript.Number

def Decimal.value (d : Decimal) : ℚ := d.digits * 10 ^ d.exponent

/-! ## Digits -/

theorem digitCount_pos (n : Nat) : 0 < digitCount n := Nat.length_toDigits_pos

theorem lt_ten_pow_digitCount (n : Nat) : n < 10 ^ digitCount n :=
  (Nat.length_toDigits_le_iff (by decide) (digitCount_pos n)).mp le_rfl

theorem ten_pow_digitCount_le {n : Nat} (hn : 0 < n) : 10 ^ (digitCount n - 1) ≤ n := by
  rcases Nat.eq_or_lt_of_le (digitCount_pos n) with h | h
  · rw [← h]
    exact hn
  · by_contra hlt
    have := (Nat.length_toDigits_le_iff (b := 10) (by decide) (by omega)).mpr (not_le.mp hlt)
    unfold digitCount at *
    omega

namespace Interval

variable {i : Interval}

/-! ## Intervals of rational numbers -/

def Contains (i : Interval) (v : ℚ) : Prop :=
  if i.closed then (i.low : ℚ) ≤ v * i.unit ∧ v * i.unit ≤ i.high
  else (i.low : ℚ) < v * i.unit ∧ v * i.unit < i.high

theorem contains_of_lt {v : ℚ} (hlow : (i.low : ℚ) < v * i.unit) (hhigh : v * i.unit < i.high) :
    i.Contains v := by
  unfold Contains
  split
  · exact ⟨hlow.le, hhigh.le⟩
  · exact ⟨hlow, hhigh⟩

/-- Counted on a grid, a decimal is a whole number of units. -/
theorem unit_onGrid (i : Interval) (k : Int) (d : Nat) :
    ((d * (i.onGrid k).unit : Nat) : ℚ) = d * 10 ^ k * i.unit * 10 ^ (-k).toNat := by
  have hpow : (10 : ℚ) ^ (-k).toNat ≠ 0 := by positivity
  show ((d * (i.unit * 10 ^ k.toNat) : Nat) : ℚ) = _
  rw [zpow_eq_div 10 (by norm_num)]
  push_cast
  field_simp

/-- What is found on a grid lies in the interval. -/
theorem contains_of_holds_onGrid {k : Int} {d : Nat} (h : (i.onGrid k).holds d = true) :
    i.Contains (d * 10 ^ k) := by
  have hup : (0 : ℚ) < 10 ^ (-k).toNat := by positivity
  have hunit := unit_onGrid i k d
  have hlow : ((i.onGrid k).low : ℚ) = i.low * 10 ^ (-k).toNat := by
    show ((i.low * 10 ^ (-k).toNat : Nat) : ℚ) = _
    push_cast
    rfl
  have hhigh : ((i.onGrid k).high : ℚ) = i.high * 10 ^ (-k).toNat := by
    show ((i.high * 10 ^ (-k).toNat : Nat) : ℚ) = _
    push_cast
    rfl
  have hclosed : (i.onGrid k).closed = i.closed := rfl
  unfold holds at h
  unfold Contains
  rw [hclosed] at h
  dsimp only at h
  split at h
  · simp only [Bool.and_eq_true, decide_eq_true_eq, ← @Nat.cast_le ℚ] at h
    rw [hunit, hlow, hhigh, mul_le_mul_iff_left₀ hup, mul_le_mul_iff_left₀ hup] at h
    rwa [if_pos ‹_›]
  · simp only [Bool.and_eq_true, decide_eq_true_eq, ← @Nat.cast_lt ℚ] at h
    rw [hunit, hlow, hhigh, mul_lt_mul_iff_left₀ hup, mul_lt_mul_iff_left₀ hup] at h
    rwa [if_neg ‹_›]

theorem holds_of_nearest? {tie : Tie} {d : Nat} (h : i.nearest? tie = some d) :
    i.holds d = true := by
  unfold nearest? at h
  dsimp only at h
  split at h
  · cases h
  · rename_i hbelow _
    rwa [← Option.some.inj h]
  · rename_i _ habove
    rwa [← Option.some.inj h]
  · cases tie <;> split_ifs at h <;>
      · obtain rfl := Option.some.inj h
        assumption

/-! ## Magnitude -/

/-- The power of ten of the leading digit is not above the value. -/
theorem ten_pow_leading_le (hvalue : 0 < i.value) :
    (10 : ℚ) ^ i.leading * i.unit ≤ i.value := by
  unfold leading
  dsimp only
  split_ifs with h
  · -- One power less is reached by the numbers of digits alone.
    have hdigits : (10 : ℚ) ^ (digitCount i.value - 1) ≤ i.value := by
      exact_mod_cast ten_pow_digitCount_le hvalue
    have hunit : (i.unit : ℚ) ≤ 10 ^ digitCount i.unit := by
      exact_mod_cast (lt_ten_pow_digitCount i.unit).le
    have hpos := digitCount_pos i.value
    calc (10 : ℚ) ^ ((digitCount i.value : Int) - digitCount i.unit - 1) * i.unit
        ≤ 10 ^ ((digitCount i.value : Int) - digitCount i.unit - 1) * 10 ^ digitCount i.unit :=
          mul_le_mul_of_nonneg_left hunit (by positivity)
      _ = 10 ^ (digitCount i.value - 1) := by
        rw [← zpow_natCast, ← zpow_natCast, ← zpow_add₀ (by norm_num)]
        congr 1
        omega
      _ ≤ i.value := hdigits
  · generalize (digitCount i.value : Int) - digitCount i.unit = guess at h ⊢
    have hle : (i.unit : ℚ) * 10 ^ guess.toNat ≤ i.value * 10 ^ (-guess).toNat := by
      exact_mod_cast not_lt.mp h
    have hpow : (0 : ℚ) < 10 ^ (-guess).toNat := by positivity
    rw [zpow_eq_div 10 (by norm_num), div_mul_eq_mul_div, div_le_iff₀ hpow]
    linarith

/-! ## The interval of a float -/

theorem two_pow_shift (e : Int) :
    ((1 <<< (e - 2).toNat : Nat) : ℚ) = (2 : ℚ) ^ e / 4 * ((1 <<< (-(e - 2)).toNat : Nat) : ℚ) := by
  rw [Nat.shiftLeft_eq, Nat.shiftLeft_eq, one_mul, one_mul]
  have h4 : (2 : ℚ) ^ e / 4 = 2 ^ (e - 2) := by
    rw [zpow_sub₀ (by norm_num)]
    norm_num
  have hpow : (2 : ℚ) ^ (-(e - 2)).toNat ≠ 0 := by positivity
  push_cast
  rw [h4, zpow_eq_div 2 (by norm_num)]
  field_simp

variable {b : Binary}

theorem low_ofBinary (hm : 0 < b.mantissa) :
    ((ofBinary b).low : ℚ) = b.low * (ofBinary b).unit := by
  unfold ofBinary Binary.low
  dsimp only
  push_cast
  rw [two_pow_shift, Nat.cast_sub (by split_ifs <;> omega)]
  split_ifs <;> push_cast <;> ring

theorem value_ofBinary : ((ofBinary b).value : ℚ) = b.mantissa * 2 ^ b.exponent * (ofBinary b).unit := by
  unfold ofBinary
  dsimp only
  push_cast
  rw [two_pow_shift]
  ring

theorem high_ofBinary : ((ofBinary b).high : ℚ) = b.high * (ofBinary b).unit := by
  unfold ofBinary Binary.high
  dsimp only
  push_cast
  rw [two_pow_shift]
  ring

theorem unit_ofBinary_pos : (0 : ℚ) < (ofBinary b).unit := by
  unfold ofBinary
  dsimp only
  rw [Nat.shiftLeft_eq]
  positivity

/-- The interval of a float holds the numbers that round to it. -/
theorem rounds_of_contains (hm : 0 < b.mantissa) {v : ℚ} (h : (ofBinary b).Contains v) :
    b.Rounds v := by
  have hunit := @unit_ofBinary_pos b
  have hclosed : (ofBinary b).closed = (b.mantissa % 2 == 0) := rfl
  unfold Contains at h
  rw [low_ofBinary hm, high_ofBinary, hclosed] at h
  split_ifs at h with heven
  · rw [mul_le_mul_iff_left₀ hunit, mul_le_mul_iff_left₀ hunit] at h
    refine ⟨h.1, h.2, fun hodd => ?_⟩
    rw [beq_iff_eq] at heven
    omega
  · rw [mul_lt_mul_iff_left₀ hunit, mul_lt_mul_iff_left₀ hunit] at h
    exact ⟨h.1.le, h.2.le, fun _ => h⟩

end Interval

/-! ## The search -/

theorem Decimal.value_trim (fuel : Nat) (d : Decimal) : (d.trim fuel).value = d.value := by
  induction fuel generalizing d with
  | zero => rfl
  | succ fuel ih =>
    unfold Decimal.trim
    split
    · rename_i h
      rw [beq_iff_eq] at h
      rw [ih]
      have hdigits : (d.digits : ℚ) = (d.digits / 10 : Nat) * 10 := by
        exact_mod_cast (Nat.div_mul_cancel (Nat.dvd_of_mod_eq_zero h)).symm
      unfold Decimal.value
      dsimp only
      rw [zpow_add₀ (by norm_num), zpow_one, hdigits]
      ring
    · rfl

/-- The search finds a decimal of the interval, if the one it falls back on is in it. -/
theorem contains_shortestFrom {tie : Tie} {i : Interval} {top : Int} {grids count : Nat}
    (h : i.Contains (shortestFrom tie i top 0 (count + grids)).value) :
    i.Contains (shortestFrom tie i top grids count).value := by
  induction grids generalizing count with
  | zero => exact h
  | succ grids ih =>
    unfold shortestFrom
    split
    · rename_i d hd
      exact Interval.contains_of_holds_onGrid (Interval.holds_of_nearest? hd)
    · exact ih (by rwa [Nat.add_right_comm])

/-- Cutting off what is below a grid loses less than a step of the grid. -/
theorem Interval.floor_onGrid (i : Interval) (hunit : 0 < i.unit) (k : Int) :
    ((i.onGrid k).value / (i.onGrid k).unit : Nat) * (10 : ℚ) ^ k * i.unit ≤ i.value ∧
      i.value < ((i.onGrid k).value / (i.onGrid k).unit : Nat) * (10 : ℚ) ^ k * i.unit +
        10 ^ k * i.unit := by
  have hup : (0 : ℚ) < 10 ^ (-k).toNat := by positivity
  have hvalue : ((i.onGrid k).value : ℚ) = i.value * 10 ^ (-k).toNat := by
    show ((i.value * 10 ^ (-k).toNat : Nat) : ℚ) = _
    push_cast
    rfl
  have hpos : 0 < (i.onGrid k).unit := by
    show 0 < i.unit * 10 ^ k.toNat
    positivity
  have hlow := Nat.div_mul_le_self (i.onGrid k).value (i.onGrid k).unit
  have hhigh := Nat.lt_div_mul_add hpos (a := (i.onGrid k).value)
  generalize (i.onGrid k).value / (i.onGrid k).unit = d at hlow hhigh ⊢
  have hstep := unit_onGrid i k d
  have hone := unit_onGrid i k 1
  have hlow' : ((d * (i.onGrid k).unit : Nat) : ℚ) ≤ (i.onGrid k).value := by exact_mod_cast hlow
  have hhigh' : ((i.onGrid k).value : ℚ) <
      (d * (i.onGrid k).unit : Nat) + (1 * (i.onGrid k).unit : Nat) := by
    rw [Nat.one_mul]
    exact_mod_cast hhigh
  rw [hvalue, hstep, mul_le_mul_iff_left₀ hup] at hlow'
  rw [hvalue, hstep, hone, ← add_mul, mul_lt_mul_iff_left₀ hup, Nat.cast_one, one_mul] at hhigh'
  exact ⟨hlow', hhigh'⟩

/-- Eighteen digits of a float, the rest cut off, lie in its interval. -/
theorem contains_fallback {b : Binary} (hb : b.Canonical) (hm : 0 < b.mantissa) (tie : Tie) :
    (Interval.ofBinary b).Contains
      (shortestFrom tie (.ofBinary b) (Interval.ofBinary b).leading 0 18).value := by
  have hunit := @Interval.unit_ofBinary_pos b
  have hpow : (0 : ℚ) < 2 ^ b.exponent := by positivity
  have hvalue := @Interval.value_ofBinary b
  have hpos : 0 < (Interval.ofBinary b).value := by
    have hm' : (0 : ℚ) < b.mantissa := by exact_mod_cast hm
    have : (0 : ℚ) < (Interval.ofBinary b).value := by
      rw [hvalue]
      positivity
    exact_mod_cast this
  have hleading := Interval.ten_pow_leading_le hpos
  have hlow := Interval.low_ofBinary hm
  have hhigh := @Interval.high_ofBinary b
  obtain ⟨hfloor, hstep⟩ := (Interval.ofBinary b).floor_onGrid (by exact_mod_cast hunit)
    ((Interval.ofBinary b).leading - (18 : Nat) + 1)
  -- A step of the grid is less than a quarter of the unit of the float.
  have hsmall : (10 : ℚ) ^ ((Interval.ofBinary b).leading - (18 : Nat) + 1) < 2 ^ b.exponent / 4 := by
    have hmantissa : (b.mantissa : ℚ) < 9007199254740992 := by exact_mod_cast hb.mantissa_lt
    rw [hvalue, mul_le_mul_iff_left₀ hunit] at hleading
    rw [sub_add, zpow_sub₀ (by norm_num), div_lt_iff₀ (by norm_num)]
    norm_num
    nlinarith
  unfold shortestFrom Decimal.value
  dsimp only
  generalize (Interval.ofBinary b).leading - ((18 : Nat) : Int) + 1 = k at hfloor hstep hsmall ⊢
  rw [hvalue] at hfloor hstep
  apply Interval.contains_of_lt
  · have hquarter : b.low ≤ b.mantissa * 2 ^ b.exponent - 2 ^ b.exponent / 4 := by
      unfold Binary.low
      split_ifs <;> linarith
    have hless : b.low < b.mantissa * 2 ^ b.exponent - 10 ^ k := by linarith
    have := mul_lt_mul_of_pos_right hless hunit
    rw [hlow]
    linarith
  · have hless : (b.mantissa : ℚ) * 2 ^ b.exponent < b.high := by
      unfold Binary.high
      linarith
    have := mul_lt_mul_of_pos_right hless hunit
    rw [hhigh]
    linarith

/-- **The shortest decimal lies in the interval of the float.** -/
theorem rounds_shortest {b : Binary} (hb : b.Canonical) (hm : 0 < b.mantissa) (tie : Tie) :
    b.Rounds (shortest tie b).value := by
  apply Interval.rounds_of_contains hm
  unfold shortest
  dsimp only
  rw [Decimal.value_trim]
  exact contains_shortestFrom (contains_fallback hb hm tie)

end DiceScript.Number
