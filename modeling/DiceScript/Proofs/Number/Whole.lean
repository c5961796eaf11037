import DiceScript.Proofs.Number.Rounding

/-!
# Whole numbers as floats

A whole number of 64 bits lies in the interval of some float: its first 53 bits are the mantissa,
rounded up when what is left of the number is more than half a unit, or half a unit and the mantissa
is odd. So such a number, read as a float, is a finite one.

- `exists_rounds_natCast` — the float of a whole number.
- `isFinite_ofInt` — it is finite.
-/

namespace DiceScript.Number

open DiceScript.Number.Binary

namespace Binary

variable {b : Binary} {v : ℚ}

/-- A number not below a float rounds to it up to the upper end of the interval. -/
theorem rounds_of_ge (hge : (b.mantissa : ℚ) * 2 ^ b.exponent ≤ v) (hhigh : v ≤ b.high)
    (hodd : b.mantissa % 2 = 1 → v < b.high) : b.Rounds v := by
  refine ⟨(Rounds.self b).low_le.trans hge, hhigh, fun ho => ⟨?_, hodd ho⟩⟩
  exact ((Rounds.self b).odd ho).1.trans_le hge

/-- A number not above a float rounds to it down to the lower end of the interval. -/
theorem rounds_of_le (hle : v ≤ (b.mantissa : ℚ) * 2 ^ b.exponent) (hlow : b.low ≤ v)
    (hodd : b.mantissa % 2 = 1 → b.low < v) : b.Rounds v := by
  refine ⟨hlow, hle.trans (Rounds.self b).le_high, fun ho => ⟨hodd ho, ?_⟩⟩
  exact hle.trans_lt ((Rounds.self b).odd ho).2

end Binary

/-- A number of a mantissa and a rest below one unit, rounded down or up. -/
theorem exists_rounds_of_mantissa {q e : Nat} {v : ℚ} (hq : 2 ^ 52 ≤ q) (hq' : q < 2 ^ 53)
    (he : e < 971) (hge : q * 2 ^ (e : Int) ≤ v) (hlt : v < (q + 1) * 2 ^ (e : Int)) :
    ∃ b : Binary, b.Canonical ∧ b.negative = false ∧ 0 < b.mantissa ∧ b.Rounds v := by
  have hunit : (0 : ℚ) < 2 ^ (e : Int) := by positivity
  by_cases hdown : v < (q + 1 / 2) * 2 ^ (e : Int) ∨
      v = (q + 1 / 2) * 2 ^ (e : Int) ∧ q % 2 = 0
  · refine ⟨⟨false, q, e⟩, ?_, rfl, by dsimp only; omega, rounds_of_ge hge ?_ ?_⟩
    · constructor <;> dsimp only <;> omega
    · rcases hdown with h | h
      · exact h.le
      · exact h.1.le
    · intro hodd
      rcases hdown with h | h
      · exact h
      · dsimp only at hodd
        omega
  · obtain ⟨hhalf, htie⟩ := not_or.mp hdown
    rw [not_lt] at hhalf
    have hstrict : q % 2 = 0 → (q + 1 / 2) * 2 ^ (e : Int) < v := fun heven =>
      lt_of_le_of_ne hhalf fun heq => htie ⟨heq.symm, heven⟩
    by_cases hcarry : q + 1 < 2 ^ 53
    · have hleast : (⟨false, q + 1, e⟩ : Binary).isLeastOfPower = false := by
        rw [Bool.eq_false_iff, Ne, isLeastOfPower_iff]
        dsimp only
        omega
      have hlow : (⟨false, q + 1, e⟩ : Binary).low = (q + 1 / 2) * 2 ^ (e : Int) := by
        unfold low
        rw [hleast]
        push_cast
        ring
      refine ⟨⟨false, q + 1, e⟩, ?_, rfl, by dsimp only; omega, rounds_of_le ?_ ?_ ?_⟩
      · constructor <;> dsimp only <;> omega
      · push_cast
        exact hlt.le
      · rw [hlow]
        exact hhalf
      · intro hodd
        rw [hlow]
        exact hstrict (by dsimp only at hodd; omega)
    · -- All bits of the mantissa are ones, so rounding up leads to the next power of two.
      obtain rfl : q = 2 ^ 53 - 1 := by omega
      have hleast : (⟨false, 2 ^ 52, e + 1⟩ : Binary).isLeastOfPower = true := by
        rw [isLeastOfPower_iff]
        dsimp only
        omega
      have hpower : (2 : ℚ) ^ ((e : Int) + 1) = 2 * 2 ^ (e : Int) := by
        rw [zpow_add₀ (by norm_num), zpow_one, mul_comm]
      refine ⟨⟨false, 2 ^ 52, e + 1⟩, ?_, rfl, by norm_num, rounds_of_le ?_ ?_ ?_⟩
      · constructor <;> dsimp only <;> omega
      · dsimp only
        rw [hpower]
        norm_num at hlt ⊢
        linarith
      · unfold low
        rw [hleast]
        dsimp only
        rw [hpower]
        norm_num at hhalf ⊢
        linarith
      · intro hodd
        norm_num at hodd

/-- A whole number of 64 bits lies in the interval of a float. -/
theorem exists_rounds_natCast {n : Nat} (hpos : 0 < n) (hlt : n < 2 ^ 64) :
    ∃ b : Binary, b.Canonical ∧ b.negative = false ∧ 0 < b.mantissa ∧ b.Rounds n := by
  by_cases hsmall : n < 2 ^ 53
  · refine ⟨ofWhole n, canonical_ofWhole hpos hsmall, rfl, Nat.mul_pos hpos (by positivity), ?_⟩
    have hself := Rounds.self (ofWhole n)
    rwa [value_ofWhole hpos hsmall] at hself
  · have hlog : n.log2 < 64 := (Nat.log2_lt hpos.ne').mpr hlt
    have hlog' : 53 ≤ n.log2 := (Nat.le_log2 hpos.ne').mpr (by omega)
    obtain ⟨e, he⟩ : ∃ e, n.log2 = e + 52 := ⟨n.log2 - 52, by omega⟩
    have hunit : 0 < 2 ^ e := by positivity
    have hlow : 2 ^ 52 ≤ n / 2 ^ e := by
      rw [Nat.le_div_iff_mul_le hunit, ← Nat.pow_add, Nat.add_comm, ← he]
      exact Nat.log2_self_le hpos.ne'
    have hhigh : n / 2 ^ e < 2 ^ 53 := by
      rw [Nat.div_lt_iff_lt_mul hunit, ← Nat.pow_add, show 53 + e = n.log2 + 1 by omega]
      exact Nat.lt_log2_self
    refine exists_rounds_of_mantissa hlow hhigh (e := e) (by omega) ?_ ?_
    · rw [zpow_natCast]
      exact_mod_cast Nat.div_mul_le_self n (2 ^ e)
    · rw [zpow_natCast]
      exact_mod_cast (Nat.div_lt_iff_lt_mul hunit).mp (Nat.lt_succ_self (n / 2 ^ e))

/-- A whole number of 64 bits, read as a float, is finite. -/
theorem isFinite_ofNat {n : Nat} (hlt : n < 2 ^ 64) : (Float.ofNat n).isFinite := by
  show (Float.ofScientific n false 0).isFinite
  rcases Nat.eq_zero_or_pos n with rfl | hpos
  · decide
  · obtain ⟨b, hb, hsign, hm, hv⟩ := exists_rounds_natCast hpos hlt
    have hread : Float.ofScientific n false 0 = b.packed :=
      ofScientific_eq (k := 0) hb hm hsign hpos (by simpa using hv)
    rw [hread]
    exact isFinite_packed hb

theorem isFinite_ofInt {n : Int} (hlt : n.natAbs < 2 ^ 64) : (Float.ofInt n).isFinite := by
  cases n with
  | ofNat n => exact isFinite_ofNat hlt
  | negSucc n => exact isFinite_neg (isFinite_ofNat hlt)

end DiceScript.Number
