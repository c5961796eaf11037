import DiceScript.Operator.Apply
import Mathlib.Data.Rat.Floor
import Mathlib.Tactic

/-!
# Integers are exact or refused

What an operator makes of two integers has an exact value, a number that knows no bounds. `exactResult?`
gives it: quotients are those of the rational numbers, rounded down. Working in 64 bits, operators yield
that value wherever 64 bits hold it, and fail where they do not. Division goes towards zero at first and
is put right afterwards; the steps that do so stay within 64 bits, too.

One pair of operands falls out. What the least integer leaves when it is divided by -1 is zero, but the
quotient does not fit, and the remainder is refused with it.

- `exactResult?` — the value of an operator on whole numbers.
- `Exactly` — a result that is a number, or a failure where the number does not fit.
- `toInt_flooredQuotient`, `toInt_flooredRest` — division, put right.
- `integers_exact_or_refused` — all operators on integers.
- `remainder_refused_without_overflow` — the pair that falls out.
-/

namespace DiceScript

namespace Number

theorem fit?_of_fits {n : ℤ} (h : Fits n) : fit? n = some (Int64.ofInt n) := if_pos h

theorem fit?_of_not_fits {n : ℤ} (h : ¬ Fits n) : fit? n = none := if_neg h

theorem toInt_ofInt {n : ℤ} (h : Fits n) : (Int64.ofInt n).toInt = n :=
  Int64.toInt_ofInt_of_le h.1 h.2

/-- What fits does not wrap around. -/
theorem bmod_of_fits {n : ℤ} (h : Fits n) : n.bmod (2 ^ 64) = n := by
  obtain ⟨hlow, hhigh⟩ := h
  apply Int.bmod_eq_of_le <;> norm_num <;> omega

/-! ## Floored division -/

/-- The exact quotient, rounded down. -/
theorem floor_div (a : ℤ) {b : ℤ} (hb : b ≠ 0) : ⌊(a : ℚ) / b⌋ = a.fdiv b := by
  have hpos : ∀ a b : ℤ, 0 < b → ⌊(a : ℚ) / b⌋ = a.fdiv b := by
    intro a b hb
    obtain ⟨d, rfl⟩ := Int.eq_ofNat_of_zero_le hb.le
    rw [Int.fdiv_eq_ediv_of_nonneg a hb.le, ← Rat.floor_intCast_div_natCast a d, Int.cast_natCast]
  rcases lt_or_gt_of_ne hb with hneg | h
  · have h := hpos (-a) (-b) (by omega)
    rwa [Int.neg_fdiv_neg, Int.cast_neg, Int.cast_neg, neg_div_neg_eq] at h
  · exact hpos a b h

/-- What floored division leaves lies between zero and the divisor. -/
theorem fmod_between (a : ℤ) {b : ℤ} (hb : b ≠ 0) :
    0 ≤ a.fmod b ∧ a.fmod b < b ∨ b < a.fmod b ∧ a.fmod b ≤ 0 := by
  rcases lt_or_gt_of_ne hb with hneg | hpos
  · right
    have hlow := Int.fmod_nonneg_of_pos (-a) (show 0 < -b by omega)
    have hhigh := Int.fmod_lt_of_pos (-a) (show 0 < -b by omega)
    rw [Int.neg_fmod_neg] at hlow hhigh
    constructor <;> omega
  · exact .inl ⟨Int.fmod_nonneg_of_pos a hpos, Int.fmod_lt_of_pos a hpos⟩

/-- The quotient towards zero is one too high where the signs differ and something is left. -/
theorem fdiv_eq_corrected (a : ℤ) {b : ℤ} (hb : b ≠ 0) :
    a.fdiv b = if a.tmod b ≠ 0 ∧ (a < 0 ↔ ¬ b < 0) then a.tdiv b - 1 else a.tdiv b := by
  simp only [Int.fdiv_eq_tdiv, Int.dvd_iff_tmod_eq_zero]
  rcases lt_or_gt_of_ne hb with hneg | hpos
  · rw [Int.sign_eq_neg_one_of_neg hneg]
    split_ifs <;> omega
  · rw [Int.sign_eq_one_of_pos hpos]
    split_ifs <;> omega

/-- The rest of division towards zero has the sign of the dividend. -/
theorem tmod_neg_iff {a b : ℤ} (h : a.tmod b ≠ 0) : a.tmod b < 0 ↔ a < 0 := by
  rcases lt_or_ge a 0 with ha | ha
  · have hrest := Int.tmod_nonneg b (show 0 ≤ -a by omega)
    rw [Int.neg_tmod] at hrest
    constructor <;> omega
  · have hrest := Int.tmod_nonneg b ha
    constructor <;> omega

/-- The rest of division towards zero is on the wrong side of zero where the signs differ. -/
theorem fmod_eq_corrected (a : ℤ) {b : ℤ} (hb : b ≠ 0) :
    a.fmod b = if a.tmod b ≠ 0 ∧ (a.tmod b < 0 ↔ ¬ b < 0) then a.tmod b + b else a.tmod b := by
  rw [Int.fmod_def, fdiv_eq_corrected a hb]
  have hrest := Int.tmod_def a b
  by_cases hzero : a.tmod b = 0
  · rw [if_neg (by simp [hzero]), if_neg (by simp [hzero]), ← hrest]
  · simp only [tmod_neg_iff hzero]
    split_ifs
    · rw [hrest]
      ring
    · exact hrest.symm

/-- The quotient towards zero fits, but for one pair. -/
theorem fits_tdiv_iff (a : Int64) {b : Int64} (hb : b.toInt ≠ 0) :
    Fits (a.toInt.tdiv b.toInt) ↔ ¬ (a = Int64.minValue ∧ b = -1) := by
  constructor
  · rintro ⟨-, hfit⟩ ⟨rfl, rfl⟩
    revert hfit
    decide
  · intro hpair
    obtain ⟨hlow, hhigh⟩ := fits_toInt a
    have hsize := Int.natAbs_tdiv a.toInt b.toInt
    unfold Fits
    rcases Nat.lt_or_ge b.toInt.natAbs 2 with hunit | hlarge
    · -- By one or its opposite, only the least integer is divided to something beyond the range.
      rcases (show b.toInt = 1 ∨ b.toInt = -1 by omega) with hone | hone
      · rw [hone, Int.tdiv_one]
        exact ⟨hlow, hhigh⟩
      · rw [hone, Int.tdiv_neg, Int.tdiv_one]
        have hleast : a.toInt ≠ -9223372036854775808 := by
          intro hleast
          exact hpair ⟨Int64.toInt_inj.mp hleast, Int64.toInt_inj.mp hone⟩
        omega
    · have hhalf : (a.toInt.tdiv b.toInt).natAbs ≤ a.toInt.natAbs / 2 := by
        rw [hsize]
        exact Nat.div_le_div_left hlarge (by decide)
      omega

/-! ## Division in 64 bits -/

variable {a b : Int64}

/-- There is a quotient towards zero but for a divisor of zero and one pair. -/
theorem quotient?_cases (hb : b ≠ 0) :
    (∃ q, quotient? a b = some q ∧ q.toInt = a.toInt.tdiv b.toInt) ∨
      quotient? a b = none ∧ a = Int64.minValue ∧ b = -1 := by
  have hzero : b.toInt ≠ 0 := fun h => hb (Int64.toInt_inj.mp h)
  unfold quotient?
  rw [if_neg hb]
  by_cases hfit : Fits (a.toInt.tdiv b.toInt)
  · exact .inl ⟨_, fit?_of_fits hfit, toInt_ofInt hfit⟩
  · rw [fits_tdiv_iff a hzero, not_not] at hfit
    exact .inr ⟨by rw [hfit.1, hfit.2]; rfl, hfit⟩

end Number

namespace Operator

open Number (Fits)

/-! ## What is exact -/

/-- The exact result of an operator on whole numbers, where it has one: a shift goes 0 to 63 places far,
and a divisor is not zero. -/
def exactResult? : BinaryOp → ℤ → ℤ → Option ℤ
  | .add, a, b => some (a + b)
  | .sub, a, b => some (a - b)
  | .mul, a, b => some (a * b)
  | .shl, a, n => if 0 ≤ n ∧ n ≤ 63 then some (a * 2 ^ n.toNat) else none
  | .shr, a, n => if 0 ≤ n ∧ n ≤ 63 then some ⌊(a : ℚ) / 2 ^ n.toNat⌋ else none
  | .floorDiv, a, b => if b = 0 then none else some ⌊(a : ℚ) / b⌋
  | .rem, a, b => if b = 0 then none else some (a - b * ⌊(a : ℚ) / b⌋)
  | _, _, _ => none

/-- A result that is the number where 64 bits hold it, and a failure of the operation where they do
not. -/
structure Exactly (n : ℤ) (result : Except Cause Value) : Prop where
  fits : Fits n → ∃ m : Int64, m.toInt = n ∧ result = .ok (.integer m)
  overflows : ¬ Fits n → ∃ cause : Cause, cause.kind = .operationError ∧ result = .error cause

theorem exactly_integer {n : ℤ} {m : Int64} (h : m.toInt = n) : Exactly n (.ok (.integer m)) := by
  constructor
  · intro _
    exact ⟨m, h, rfl⟩
  · intro hfit
    exact absurd (h ▸ Number.fits_toInt m) hfit

/-- A number that is fitted into 64 bits, with a failure where it does not fit. -/
theorem exactly_fit? (n : ℤ) {cause : Cause} (h : cause.kind = .operationError) :
    Exactly n (match Number.fit? n with
      | some m => .ok (.integer m)
      | none => .error cause) := by
  constructor
  · intro hfit
    rw [Number.fit?_of_fits hfit]
    exact ⟨_, Number.toInt_ofInt hfit, rfl⟩
  · intro hfit
    rw [Number.fit?_of_not_fits hfit]
    exact ⟨cause, h, rfl⟩

theorem exactly_exact (op : BinaryOp) (n : ℤ) : Exactly n (exact op n) :=
  exactly_fit? n rfl

/-! ## Division, put right -/

variable {a b : Int64}

/-- The test that both corrections make: something is left, and on the wrong side. -/
theorem corrects_iff (rest sign b : Int64) :
    (rest != 0 && decide (sign < 0) != decide (b < 0)) = true ↔
      rest.toInt ≠ 0 ∧ (sign.toInt < 0 ↔ ¬ b.toInt < 0) := by
  rw [Bool.and_eq_true, bne_iff_ne, bne_iff_ne, ne_eq, ne_eq, decide_eq_decide, ← Int64.toInt_inj,
    Int64.lt_iff_toInt_lt, Int64.lt_iff_toInt_lt, Int64.toInt_zero]
  tauto

/-- The quotient that was put right is the exact one rounded down, and nothing wraps around on the
way. -/
theorem toInt_flooredQuotient {q : Int64} (hb : b.toInt ≠ 0)
    (hq : q.toInt = a.toInt.tdiv b.toInt) :
    (flooredQuotient a b q).toInt = ⌊(a.toInt : ℚ) / b.toInt⌋ := by
  have htest := corrects_iff (a % b) a b
  have hfloor := Number.fdiv_eq_corrected a.toInt hb
  rw [Int64.toInt_mod] at htest
  rw [Number.floor_div _ hb]
  unfold flooredQuotient
  by_cases h : a.toInt.tmod b.toInt ≠ 0 ∧ (a.toInt < 0 ↔ ¬ b.toInt < 0)
  · have hsize := Int.natAbs_fdiv_le_natAbs a.toInt b.toInt
    obtain ⟨hlow, hhigh⟩ := Number.fits_toInt a
    obtain ⟨hqlow, hqhigh⟩ := Number.fits_toInt q
    rw [if_pos h] at hfloor
    have hfit : Fits (a.toInt.tdiv b.toInt - 1) := by
      constructor <;> omega
    rw [if_pos (htest.mpr h), Int64.toInt_sub, hq, Int64.toInt_one, Number.bmod_of_fits hfit, hfloor]
  · rw [if_neg h] at hfloor
    rw [if_neg (mt htest.mp h), hq, hfloor]

/-- The rest that was put right goes with the exact quotient rounded down, and nothing wraps around on
the way. -/
theorem toInt_flooredRest {r : Int64} (hb : b.toInt ≠ 0) (hr : r.toInt = a.toInt.tmod b.toInt) :
    (flooredRest b r).toInt = a.toInt - b.toInt * ⌊(a.toInt : ℚ) / b.toInt⌋ := by
  have htest := corrects_iff r r b
  have hfmod := Number.fmod_eq_corrected a.toInt hb
  rw [hr] at htest
  rw [Number.floor_div _ hb, ← Int.fmod_def]
  unfold flooredRest
  by_cases h : a.toInt.tmod b.toInt ≠ 0 ∧ (a.toInt.tmod b.toInt < 0 ↔ ¬ b.toInt < 0)
  · have hbetween := Number.fmod_between a.toInt hb
    obtain ⟨hlow, hhigh⟩ := Number.fits_toInt b
    rw [if_pos h] at hfmod
    have hfit : Fits (a.toInt.tmod b.toInt + b.toInt) := by
      constructor <;> omega
    rw [if_pos (htest.mpr h), Int64.toInt_add, hr, Number.bmod_of_fits hfit, hfmod]
  · rw [if_neg h] at hfmod
    rw [if_neg (mt htest.mp h), hr, hfmod]

/-- A shift to the right is the exact quotient by a power of two, rounded down. -/
theorem toInt_shiftRight {a n : Int64} (hlow : 0 ≤ n.toInt) (hhigh : n.toInt ≤ 63) :
    (a >>> n).toInt = ⌊(a.toInt : ℚ) / 2 ^ n.toInt.toNat⌋ := by
  have hplaces : (n.toBitVec.smod 64).toNat = n.toInt.toNat := by
    have hsmod : (n.toBitVec.smod 64).toInt = n.toInt := by
      rw [BitVec.toInt_smod]
      show n.toInt.fmod 64 = n.toInt
      rw [Int.fmod_eq_emod_of_nonneg _ (by decide), Int.emod_eq_of_lt hlow (by omega)]
    have hbits := (n.toBitVec.smod 64).isLt
    rw [BitVec.toInt_eq_toNat_cond] at hsmod
    split at hsmod <;> omega
  have hshift : (a >>> n).toInt = a.toInt >>> n.toInt.toNat := by
    rw [← Int64.toInt_toBitVec, Int64.toBitVec_shiftRight, BitVec.sshiftRight', hplaces,
      BitVec.toInt_sshiftRight, Int64.toInt_toBitVec]
  rw [hshift, Int.shiftRight_eq_div_pow, ← Rat.floor_intCast_div_natCast, Nat.cast_pow, Nat.cast_ofNat]

/-! ## All operators -/

theorem exactly_floorDivide (hb : b ≠ 0) :
    Exactly ⌊(a.toInt : ℚ) / b.toInt⌋ (floorDivide (.integer a) (.integer b)) := by
  have hzero : b.toInt ≠ 0 := fun h => hb (Int64.toInt_inj.mp h)
  unfold floorDivide
  dsimp only
  rw [if_neg hb]
  rcases Number.quotient?_cases (a := a) hb with ⟨q, hq, hvalue⟩ | ⟨hq, rfl, rfl⟩
  · rw [hq]
    exact exactly_integer (toInt_flooredQuotient hzero hvalue)
  · rw [hq]
    constructor
    · intro hfit
      rw [Number.floor_div _ hzero] at hfit
      exact absurd hfit (by decide)
    · intro _
      exact ⟨_, rfl, rfl⟩

theorem exactly_remainder (hb : b ≠ 0) (hpair : ¬ (a = Int64.minValue ∧ b = -1)) :
    Exactly (a.toInt - b.toInt * ⌊(a.toInt : ℚ) / b.toInt⌋) (remainder (.integer a) (.integer b)) := by
  have hzero : b.toInt ≠ 0 := fun h => hb (Int64.toInt_inj.mp h)
  unfold remainder Number.rest?
  dsimp only
  rw [if_neg hb]
  rcases Number.quotient?_cases (a := a) hb with ⟨q, hq, -⟩ | ⟨-, hleast⟩
  · rw [hq]
    exact exactly_integer (toInt_flooredRest hzero (Int64.toInt_mod a b))
  · exact absurd hleast hpair

theorem exactly_shl (hlow : 0 ≤ b.toInt) (hhigh : b.toInt ≤ 63) :
    Exactly (a.toInt * 2 ^ b.toInt.toNat) (shift .shl (.integer a) (.integer b)) := by
  have hplaces : ¬ (b.toInt < 0 ∨ 63 < b.toInt) := by omega
  unfold shift
  dsimp only
  rw [if_neg hplaces, if_neg (by decide), Int.shiftLeft_eq]
  exact exactly_exact .shl _

theorem exactly_shr (hlow : 0 ≤ b.toInt) (hhigh : b.toInt ≤ 63) :
    Exactly ⌊(a.toInt : ℚ) / 2 ^ b.toInt.toNat⌋ (shift .shr (.integer a) (.integer b)) := by
  have hplaces : ¬ (b.toInt < 0 ∨ 63 < b.toInt) := by omega
  unfold shift
  dsimp only
  rw [if_neg hplaces, if_pos rfl]
  exact exactly_integer (toInt_shiftRight hlow hhigh)

/-- **Integers are exact or refused.** Wherever the operator has an exact result on two integers, it
yields that number if 64 bits hold it, and fails if they do not; so does the sign. The exact remainder
lies between zero and the divisor. The one exception is the remainder of the least integer by -1. -/
theorem integers_exact_or_refused (limits : Limits) :
    (∀ (op : BinaryOp) (a b : Int64) (n : ℤ), exactResult? op a.toInt b.toInt = some n →
      ¬ (op = .rem ∧ a = Int64.minValue ∧ b = -1) →
        Exactly n (binary limits op (.integer a) (.integer b))) ∧
    (∀ a : Int64, Exactly (-a.toInt) (unary .neg (.integer a))) ∧
    (∀ a b n : ℤ, exactResult? .rem a b = some n → 0 ≤ n ∧ n < b ∨ b < n ∧ n ≤ 0) ∧
    binary limits .rem (.integer Int64.minValue) (.integer (-1)) = .error (.overflow .rem) := by
  refine ⟨?_, ?_, ?_, rfl⟩
  · intro op a b n hn hpair
    have hdivisor : ¬ b.toInt = 0 → b ≠ 0 := by
      rintro h rfl
      exact h rfl
    cases op with
    | add =>
      obtain rfl := Option.some.inj hn
      exact exactly_exact .add _
    | sub =>
      obtain rfl := Option.some.inj hn
      exact exactly_exact .sub _
    | mul =>
      obtain rfl := Option.some.inj hn
      exact exactly_exact .mul _
    | shl =>
      rw [exactResult?, Option.ite_none_right_eq_some] at hn
      obtain ⟨⟨hlow, hhigh⟩, hn⟩ := hn
      obtain rfl := Option.some.inj hn
      exact exactly_shl hlow hhigh
    | shr =>
      rw [exactResult?, Option.ite_none_right_eq_some] at hn
      obtain ⟨⟨hlow, hhigh⟩, hn⟩ := hn
      obtain rfl := Option.some.inj hn
      exact exactly_shr hlow hhigh
    | floorDiv =>
      rw [exactResult?, Option.ite_none_left_eq_some] at hn
      obtain ⟨hb, hn⟩ := hn
      obtain rfl := Option.some.inj hn
      exact exactly_floorDivide (hdivisor hb)
    | rem =>
      rw [exactResult?, Option.ite_none_left_eq_some] at hn
      obtain ⟨hb, hn⟩ := hn
      obtain rfl := Option.some.inj hn
      exact exactly_remainder (hdivisor hb) fun h => hpair ⟨rfl, h⟩
    | _ => cases hn
  · intro a
    exact exactly_fit? _ rfl
  · intro a b n hn
    rw [exactResult?, Option.ite_none_left_eq_some] at hn
    obtain ⟨hb, hn⟩ := hn
    obtain rfl := Option.some.inj hn
    rw [Number.floor_div a hb, ← Int.fmod_def]
    exact Number.fmod_between a hb

/-- By three, the least integer leaves one: the rest towards zero is -2 and has to be put right. -/
theorem integers_exact_or_refused_least :
    exactResult? .rem Int64.minValue.toInt (3 : Int64).toInt = some 1 ∧
      ∃ m : Int64, m.toInt = 1 ∧
        binary {} .rem (.integer Int64.minValue) (.integer 3) = .ok (.integer m) := by
  have hexact : exactResult? .rem Int64.minValue.toInt (3 : Int64).toInt = some 1 := by
    decide +kernel
  have hpair : ¬ (BinaryOp.rem = .rem ∧ Int64.minValue = Int64.minValue ∧ (3 : Int64) = -1) := by
    decide
  exact ⟨hexact, ((integers_exact_or_refused {}).1 .rem Int64.minValue 3 1 hexact hpair).fits (by decide)⟩

/-- By -1, the least integer leaves nothing, and zero fits; but the remainder is refused. -/
theorem remainder_refused_without_overflow :
    exactResult? .rem Int64.minValue.toInt (-1 : Int64).toInt = some 0 ∧ Fits 0 ∧
      binary {} .rem (.integer Int64.minValue) (.integer (-1)) = .error (.overflow .rem) ∧
      ¬ Exactly 0 (binary {} .rem (.integer Int64.minValue) (.integer (-1))) := by
  have hrefused : binary {} .rem (.integer Int64.minValue) (.integer (-1)) = .error (.overflow .rem) :=
    rfl
  refine ⟨by decide +kernel, by decide, hrefused, ?_⟩
  intro hexact
  obtain ⟨m, -, hresult⟩ := hexact.fits (by decide)
  rw [hrefused] at hresult
  cases hresult

end Operator

end DiceScript
