import DiceScript.Proofs.Number.Packing

/-!
# Rounding to the nearest float

Every number in the interval around a float rounds to that float. The intermediate results of a
multiplication or a division are a mantissa with two residual bits; `Covers` says which rational
number such a result stands for, so that shifting is division by a power of two and the rounded
mantissa is the nearest whole number.

- `Binary.Rounds` — the numbers in the interval of a float.
- `Covers` — what a mantissa with its residual bits stands for.
- `roundWithAccuracy_eq` — a number in the interval is rounded to the float.
- `ofScientific_eq` — so a decimal in the interval is read as the float.
-/

namespace DiceScript.Number

open Float.Model (Format UnpackedFloat totalExponent)
open Float.Model.UnpackedFloat

/-! ## Residual bits -/

/-- The residual bits of a mantissa tell where above it a number lies. -/
def Covers (em : ExtendedMantissa) (t : ℚ) : Prop :=
  match em.roundBit, em.stickyBit with
  | false, false => t = em.mantissa
  | false, true => em.mantissa < t ∧ t < em.mantissa + 1 / 2
  | true, false => t = em.mantissa + 1 / 2
  | true, true => em.mantissa + 1 / 2 < t ∧ t < em.mantissa + 1

namespace Covers

variable {em : ExtendedMantissa} {t : ℚ}

theorem bounds (h : Covers em t) : (em.mantissa : ℚ) ≤ t ∧ t < em.mantissa + 1 := by
  unfold Covers at h
  split at h <;> constructor <;> linarith

/-- A shift halves the number. -/
theorem shiftRightOne (h : Covers em t) : Covers em.shiftRightOne (t / 2) := by
  obtain ⟨m, r, s⟩ := em
  have hdiv : (m : ℚ) = 2 * (m / 2 : Nat) + (m % 2 : Nat) := by
    exact_mod_cast (Nat.div_add_mod m 2).symm
  rcases Nat.mod_two_eq_zero_or_one m with hm | hm <;> cases r <;> cases s <;>
    simp only [Covers, ExtendedMantissa.shiftRightOne, hm, Nat.cast_zero, Nat.cast_one] at h hdiv ⊢ <;>
    simp only [bne_self_eq_false, Nat.reduceBNe, Bool.or_false, Bool.or_true] <;>
    first
      | linarith
      | constructor <;> linarith

theorem shiftRight (h : Covers em t) (n : Nat) : Covers (em >>> n) (t / 2 ^ n) := by
  induction n with
  | zero =>
    rw [pow_zero, div_one]
    exact h
  | succ n ih =>
    have hstep := ih.shiftRightOne
    rw [div_div, ← pow_succ] at hstep
    exact hstep

theorem le_of_cast_lt {m k : Nat} (h : (m : ℚ) < k + 1) : m ≤ k := by
  have h' : m < k + 1 := by exact_mod_cast h
  omega

/-- Rounding gives the nearest whole number, the even one of two that are equally near. -/
theorem roundedMantissa (h : Covers em t) {m : Nat} (hlow : (m : ℚ) - 1 / 2 ≤ t)
    (hhigh : t ≤ m + 1 / 2) (hodd : m % 2 = 1 → (m : ℚ) - 1 / 2 < t ∧ t < m + 1 / 2) :
    em.roundedMantissa = m := by
  obtain ⟨k, r, s⟩ := em
  cases r <;> cases s <;> dsimp only [Covers] at h <;>
    simp only [ExtendedMantissa.roundedMantissa, ExtendedMantissa.accuracy,
      Accuracy.roundToNearestEven]
  · have h1 : m ≤ k := le_of_cast_lt (by linarith)
    have h2 : k ≤ m := le_of_cast_lt (by linarith)
    omega
  · have h1 : m ≤ k := le_of_cast_lt (by linarith)
    have h2 : k ≤ m := le_of_cast_lt (by linarith)
    omega
  · have h1 : m ≤ k + 1 := le_of_cast_lt (by push_cast; linarith)
    have h2 : k ≤ m := le_of_cast_lt (by linarith)
    -- The number is half way between `k` and `k + 1`, so `m` is the even one of them.
    have heven : m % 2 ≠ 1 := by
      intro hm
      obtain ⟨hl, hh⟩ := hodd hm
      have h3 : m < k + 1 := by
        have : (m : ℚ) < (k + 1 : Nat) := by push_cast; linarith
        exact_mod_cast this
      have h4 : k < m := by
        have : (k : ℚ) < m := by linarith
        exact_mod_cast this
      omega
    omega
  · have h1 : m ≤ k + 1 := le_of_cast_lt (by push_cast; linarith)
    have h2 : k < m := by
      have : (k : ℚ) < m := by linarith
      exact_mod_cast this
    omega

end Covers

/-! ## Shifting to the exponent of a float -/

theorem targetExponent_eq (m : Nat) (e : Int) :
    double.targetExponent (totalExponent m e) = max (m.log2 + e - 52) (-1074) := by
  simp only [Format.targetExponent, totalExponent, Format.mantissaBits, Format.minExponent]
  norm_num
  omega

/-- A shift to a greater exponent counts the same number in greater units. -/
theorem exists_shiftToTargetExponent {m : Nat} {e : Int} {accuracy : Accuracy} {v : ℚ}
    (h : Covers (.ofMantissaAndAccuracy m accuracy) (v / 2 ^ e))
    (he : e ≤ max (m.log2 + e - 52) (-1074)) :
    ∃ em, shiftToTargetExponent double m e accuracy = (em, max (m.log2 + e - 52) (-1074)) ∧
      Covers em (v / 2 ^ max (m.log2 + e - 52) (-1074)) := by
  unfold shiftToTargetExponent
  rw [targetExponent_eq]
  generalize max (m.log2 + e - 52) (-1074) = target at he ⊢
  have hn : ((target - e).toNat : Int) = target - e := by omega
  have hpow : v / (2 : ℚ) ^ e / 2 ^ (target - e).toNat = v / 2 ^ target := by
    rw [div_div, ← zpow_natCast, hn, ← zpow_add₀ (by norm_num)]
    congr 2
    omega
  refine ⟨_, Prod.ext rfl ?_, ?_⟩
  · show e + ((target - e).toNat : Int) = target
    omega
  · rw [← hpow]
    exact h.shiftRight (target - e).toNat

/-- A float has the exponent that its mantissa asks for. -/
theorem shiftToTargetExponent_canonical {b : Binary} (hb : b.Canonical) (hm : 0 < b.mantissa) :
    shiftToTargetExponent double b.mantissa b.exponent .exact =
      (⟨b.mantissa, false, false⟩, b.exponent) := by
  have htarget : double.targetExponent (totalExponent b.mantissa b.exponent) = b.exponent := by
    rw [targetExponent_eq]
    obtain ⟨h1, h2, h3, h4⟩ := hb
    have hlog : b.mantissa.log2 < 53 := (Nat.log2_lt hm.ne').mpr (by omega)
    rcases h4 with h4 | h4
    · have hlog' : 52 ≤ b.mantissa.log2 := (Nat.le_log2 hm.ne').mpr (by omega)
      omega
    · omega
  unfold shiftToTargetExponent
  rw [htarget]
  unfold shiftToExponent
  dsimp only
  rw [Int.sub_self, Int.toNat_zero, Nat.cast_zero, Int.add_zero]
  rfl

/-! ## The interval of a float -/

namespace Binary

def low (b : Binary) : ℚ := (b.mantissa - if b.isLeastOfPower then 1 / 4 else 1 / 2) * 2 ^ b.exponent

def high (b : Binary) : ℚ := (b.mantissa + 1 / 2) * 2 ^ b.exponent

/-- A number in the interval of a float. The ends belong to it when the mantissa is even. -/
structure Rounds (b : Binary) (v : ℚ) : Prop where
  low_le : b.low ≤ v
  le_high : v ≤ b.high
  odd : b.mantissa % 2 = 1 → b.low < v ∧ v < b.high

theorem isLeastOfPower_iff {b : Binary} :
    b.isLeastOfPower = true ↔ b.mantissa = 4503599627370496 ∧ -1074 < b.exponent := by
  simp [isLeastOfPower, fractions]

theorem half_le_low (b : Binary) : ((b.mantissa : ℚ) - 1 / 2) * 2 ^ b.exponent ≤ b.low := by
  have hpow : (0 : ℚ) < 2 ^ b.exponent := by positivity
  unfold low
  apply mul_le_mul_of_nonneg_right _ hpow.le
  split_ifs <;> linarith

namespace Rounds

variable {b : Binary} {v : ℚ}

/-- A float lies inside its own interval. -/
theorem self (b : Binary) : b.Rounds (b.mantissa * 2 ^ b.exponent) := by
  have hpow : (0 : ℚ) < 2 ^ b.exponent := by positivity
  have hlow : b.low < b.mantissa * 2 ^ b.exponent := by
    unfold low
    apply mul_lt_mul_of_pos_right _ hpow
    split_ifs <;> linarith
  have hhigh : (b.mantissa : ℚ) * 2 ^ b.exponent < b.high := by
    unfold high
    apply mul_lt_mul_of_pos_right _ hpow
    linarith
  exact ⟨hlow.le, hhigh.le, fun _ => ⟨hlow, hhigh⟩⟩

/-- In units of the float the number is nearest to the mantissa. -/
theorem scaled (h : b.Rounds v) :
    (b.mantissa : ℚ) - 1 / 2 ≤ v / 2 ^ b.exponent ∧ v / 2 ^ b.exponent ≤ b.mantissa + 1 / 2 ∧
      (b.mantissa % 2 = 1 → (b.mantissa : ℚ) - 1 / 2 < v / 2 ^ b.exponent ∧
        v / 2 ^ b.exponent < b.mantissa + 1 / 2) := by
  have hpow : (0 : ℚ) < 2 ^ b.exponent := by positivity
  refine ⟨?_, ?_, fun hodd => ⟨?_, ?_⟩⟩
  · rw [le_div_iff₀ hpow]
    exact b.half_le_low.trans h.low_le
  · rw [div_le_iff₀ hpow]
    exact h.le_high
  · rw [lt_div_iff₀ hpow]
    exact b.half_le_low.trans_lt (h.odd hodd).1
  · rw [div_lt_iff₀ hpow]
    exact (h.odd hodd).2

/-- The number is below the next power of two. -/
theorem lt_two_pow (h : b.Rounds v) (hb : b.Canonical) : v < 2 ^ (b.exponent + 53) := by
  have hpow : (0 : ℚ) < 2 ^ b.exponent := by positivity
  have hscaled : v / 2 ^ b.exponent < 2 ^ 53 := by
    obtain ⟨-, hhigh, hodd⟩ := h.scaled
    have hlt := hb.mantissa_lt
    rcases Nat.mod_two_eq_zero_or_one b.mantissa with hm | hm
    · have hle : b.mantissa ≤ 9007199254740990 := by omega
      have hle' : (b.mantissa : ℚ) ≤ 9007199254740990 := by exact_mod_cast hle
      linarith
    · have hle : b.mantissa ≤ 9007199254740991 := by omega
      have hle' : (b.mantissa : ℚ) ≤ 9007199254740991 := by exact_mod_cast hle
      linarith [(hodd hm).2]
  rw [div_lt_iff₀ hpow] at hscaled
  rw [zpow_add₀ (by norm_num), mul_comm]
  exact_mod_cast hscaled

/-- The magnitudes of all floats but zero. -/
theorem magnitude (h : b.Rounds v) (hb : b.Canonical) (hm : 0 < b.mantissa) :
    (2 : ℚ) ^ (-1075 : Int) ≤ v ∧ v < 2 ^ (1024 : Int) := by
  have hpow : (0 : ℚ) < 2 ^ b.exponent := by positivity
  have hone : (1 : ℚ) ≤ b.mantissa := by exact_mod_cast hm
  constructor
  · calc (2 : ℚ) ^ (-1075 : Int) ≤ 2 ^ (b.exponent - 1) :=
          zpow_le_zpow_right₀ (by norm_num) (by linarith [hb.le_exponent])
      _ = (1 - 1 / 2) * 2 ^ b.exponent := by
        rw [zpow_sub₀ (by norm_num), zpow_one]
        ring
      _ ≤ (b.mantissa - 1 / 2) * 2 ^ b.exponent :=
        mul_le_mul_of_nonneg_right (by linarith) hpow.le
      _ ≤ b.low := b.half_le_low
      _ ≤ v := h.low_le
  · exact (h.lt_two_pow hb).trans_le
      (zpow_le_zpow_right₀ (by norm_num) (by linarith [hb.exponent_le]))

end Rounds

end Binary

/-! ## Rounding -/

theorem two_zpow_lt_iff {m n : Int} : (2 : ℚ) ^ m < 2 ^ n ↔ m < n :=
  zpow_lt_zpow_iff_right₀ (by norm_num)

/-- The magnitude of a number is that of its mantissa. -/
theorem Covers.lt_two_pow {m : Nat} {e : Int} {accuracy : Accuracy} {v : ℚ}
    (h : Covers (.ofMantissaAndAccuracy m accuracy) (v / 2 ^ e)) :
    v < 2 ^ (m.log2 + e + 1) ∧ (0 < m → 2 ^ (m.log2 + e) ≤ v) := by
  have hpow : (0 : ℚ) < 2 ^ e := by positivity
  have hmantissa : (ExtendedMantissa.ofMantissaAndAccuracy m accuracy).mantissa = m := by
    cases accuracy with
    | exact => rfl
    | inexact order => cases order <;> rfl
  obtain ⟨hlow, hhigh⟩ := h.bounds
  rw [hmantissa] at hlow hhigh
  rw [le_div_iff₀ hpow] at hlow
  rw [div_lt_iff₀ hpow] at hhigh
  constructor
  · have hm : m + 1 ≤ 2 ^ (m.log2 + 1) := Nat.lt_log2_self
    have hm' : (m : ℚ) + 1 ≤ 2 ^ (m.log2 + 1) := by exact_mod_cast hm
    calc v < (m + 1) * 2 ^ e := hhigh
      _ ≤ 2 ^ (m.log2 + 1) * 2 ^ e := mul_le_mul_of_nonneg_right hm' hpow.le
      _ = 2 ^ (m.log2 + e + 1) := by
        rw [← zpow_natCast, ← zpow_add₀ (by norm_num)]
        congr 1
        push_cast
        ring
  · intro hpos
    have hm : 2 ^ m.log2 ≤ m := Nat.log2_self_le hpos.ne'
    have hm' : (2 : ℚ) ^ m.log2 ≤ m := by exact_mod_cast hm
    calc (2 : ℚ) ^ (m.log2 + e) = 2 ^ m.log2 * 2 ^ e := by
          rw [zpow_add₀ (by norm_num), zpow_natCast]
      _ ≤ m * 2 ^ e := mul_le_mul_of_nonneg_right hm' hpow.le
      _ ≤ v := hlow

/-- A number in the interval of a float has the exponent of the float, or, just below a power of two,
the one before it. -/
theorem targetExponent_cases {b : Binary} (hb : b.Canonical) {v : ℚ} (hv : b.Rounds v) {m : Nat}
    {e : Int} {accuracy : Accuracy} (h : Covers (.ofMantissaAndAccuracy m accuracy) (v / 2 ^ e))
    (he : e ≤ max (m.log2 + e - 52) (-1074)) :
    max (m.log2 + e - 52) (-1074) = b.exponent ∨
      max (m.log2 + e - 52) (-1074) = b.exponent - 1 ∧ b.mantissa = 4503599627370496 ∧
        b.isLeastOfPower ∧ v < 2 ^ (b.exponent + 52) := by
  obtain ⟨hlt, hle⟩ := h.lt_two_pow
  have hexp := hb.le_exponent
  have hupper : max (m.log2 + e - 52) (-1074) ≤ b.exponent := by
    rcases Nat.eq_zero_or_pos m with hm | hm
    · subst hm
      simp only [Nat.log2_zero] at he ⊢
      omega
    · have := two_zpow_lt_iff.mp ((hle hm).trans_lt (hv.lt_two_pow hb))
      omega
  rcases hupper.eq_or_lt with heq | hless
  · exact .inl heq
  · right
    have hnormal : 4503599627370496 ≤ b.mantissa := by
      rcases hb.normal with h | h
      · exact h
      · omega
    have hbelow : v < 2 ^ (b.exponent + 52) :=
      hlt.trans_le (zpow_le_zpow_right₀ (by norm_num) (by omega))
    have hpow : (0 : ℚ) < 2 ^ b.exponent := by positivity
    rw [zpow_add₀ (by norm_num)] at hbelow
    have hmantissa : b.mantissa = 4503599627370496 := by
      have hscaled : (b.mantissa : ℚ) - 1 / 2 < 2 ^ (52 : Int) :=
        hv.scaled.1.trans_lt ((div_lt_iff₀ hpow).mpr (by linarith))
      have hle : b.mantissa < 4503599627370497 := by
        have : (b.mantissa : ℚ) < 4503599627370497 := by
          norm_num at hscaled
          linarith
        exact_mod_cast this
      omega
    have hleast : b.isLeastOfPower := Binary.isLeastOfPower_iff.mpr ⟨hmantissa, by omega⟩
    have habove : (2 : ℚ) ^ (b.exponent + 51) < v := by
      have hlow := hv.low_le
      unfold Binary.low at hlow
      rw [if_pos hleast, hmantissa] at hlow
      rw [zpow_add₀ (by norm_num)]
      norm_num at hlow ⊢
      linarith
    have := two_zpow_lt_iff.mp (habove.trans hlt)
    rw [zpow_add₀ (by norm_num)]
    exact ⟨by omega, hmantissa, hleast, hbelow⟩

theorem roundWithAccuracy_of_shifts {s : Sign} {m : Nat} {e e₁ e₂ : Int} {accuracy : Accuracy}
    {em₁ em₂ : ExtendedMantissa} (h₁ : shiftToTargetExponent double m e accuracy = (em₁, e₁))
    (h₂ : shiftToTargetExponent double em₁.roundedMantissa e₁ .exact = (em₂, e₂))
    (hpos : 0 < em₂.mantissa) :
    roundWithAccuracy double s m e accuracy = .finite s em₂.mantissa e₂ hpos := by
  unfold roundWithAccuracy
  rw [h₁]
  dsimp only
  rw [h₂]
  exact dif_neg hpos.ne'

/-- **Rounding to nearest.** A mantissa with enough bits whose number lies in the interval of a float
is rounded to that float. -/
theorem roundWithAccuracy_eq {b : Binary} (hb : b.Canonical) (hm : 0 < b.mantissa) {v : ℚ}
    (hv : b.Rounds v) (s : Sign) {m : Nat} {e : Int} {accuracy : Accuracy}
    (h : Covers (.ofMantissaAndAccuracy m accuracy) (v / 2 ^ e))
    (he : e ≤ max (m.log2 + e - 52) (-1074)) :
    roundWithAccuracy double s m e accuracy = .finite s b.mantissa b.exponent hm := by
  obtain ⟨em, hem, hcovers⟩ := exists_shiftToTargetExponent h he
  rcases targetExponent_cases hb hv h he with hcase | ⟨hcase, hmantissa, hleast, hbelow⟩
  · rw [hcase] at hem hcovers
    obtain ⟨hlow, hhigh, hodd⟩ := hv.scaled
    have hrounded := hcovers.roundedMantissa hlow hhigh hodd
    have hsecond := shiftToTargetExponent_canonical hb hm
    rw [← hrounded] at hsecond
    rw [roundWithAccuracy_of_shifts hem hsecond (hrounded ▸ hm)]
    simp only [hrounded]
  · -- Rounding carries into a further bit, which a second shift takes away.
    rw [hcase] at hem hcovers
    have hpow : (0 : ℚ) < 2 ^ b.exponent := by positivity
    have hunit : v / (2 : ℚ) ^ (b.exponent - 1) = v / 2 ^ b.exponent * 2 := by
      rw [zpow_sub₀ (by norm_num), zpow_one]
      field_simp
    have hrounded : em.roundedMantissa = 9007199254740992 := by
      have hlow := hv.low_le
      unfold Binary.low at hlow
      rw [if_pos hleast, hmantissa, ← le_div_iff₀ hpow] at hlow
      rw [zpow_add₀ (by norm_num), mul_comm, ← div_lt_iff₀ hpow] at hbelow
      norm_num at hlow hbelow
      refine hcovers.roundedMantissa ?_ ?_ (fun h => absurd h (by decide))
      · rw [hunit]
        push_cast
        linarith
      · rw [hunit]
        push_cast
        linarith
    have hsecond : shiftToTargetExponent double em.roundedMantissa (b.exponent - 1) .exact =
        (⟨4503599627370496, false, false⟩, b.exponent) := by
      have hlog : Nat.log2 9007199254740992 = 53 := by decide
      have hexp := (Binary.isLeastOfPower_iff.mp hleast).2
      rw [hrounded]
      unfold shiftToTargetExponent
      rw [targetExponent_eq, hlog, show max (((53 : Nat) : Int) + (b.exponent - 1) - 52) (-1074) =
        b.exponent by omega]
      unfold shiftToExponent
      dsimp only
      rw [show (b.exponent - (b.exponent - 1)).toNat = 1 by omega]
      refine Prod.ext rfl ?_
      show b.exponent - 1 + ((1 : Nat) : Int) = b.exponent
      omega
    rw [roundWithAccuracy_of_shifts hem hsecond (by decide)]
    simp only [hmantissa]

/-! ## Products, quotients and whole numbers -/

theorem covers_exact {m : Nat} {t : ℚ} (h : t = m) : Covers (.ofMantissaAndAccuracy m .exact) t := h

/-- A product that lies in the interval of a float, of factors with at least 53 bits together. -/
theorem mul_eq {b : Binary} (hb : b.Canonical) (hm : 0 < b.mantissa) {m₁ m₂ : Nat} {e₁ e₂ : Int}
    (h₁ : 0 < m₁) (h₂ : 0 < m₂) (hbits : 2 ^ 52 ≤ m₁ * m₂)
    (hv : b.Rounds (m₁ * 2 ^ e₁ * (m₂ * 2 ^ e₂))) :
    mul double (.finite .positive m₁ e₁ h₁) (.finite .positive m₂ e₂ h₂) =
      .finite .positive b.mantissa b.exponent hm := by
  have hlog : 52 ≤ (m₁ * m₂).log2 := (Nat.le_log2 (Nat.mul_pos h₁ h₂).ne').mpr hbits
  show roundWithAccuracy double .positive (m₁ * m₂) (e₁ + e₂) .exact = _
  refine roundWithAccuracy_eq hb hm hv .positive (covers_exact ?_) (by omega)
  rw [zpow_add₀ (by norm_num)]
  have h2 (e : Int) : (2 : ℚ) ^ e ≠ 0 := zpow_ne_zero e (by norm_num)
  have := h2 e₁
  have := h2 e₂
  push_cast
  field_simp

theorem covers_fraction {n d : Nat} (hd : 0 < d) :
    Covers (.ofMantissaAndAccuracy (n / d) (accuracyOfFraction (n % d) d)) ((n : ℚ) / d) := by
  have hd' : (0 : ℚ) < d := by exact_mod_cast hd
  have hlt : ((n % d : Nat) : ℚ) < d := by exact_mod_cast Nat.mod_lt n hd
  have hdiv : (n : ℚ) / d = (n / d : Nat) + (n % d : Nat) / d := by
    rw [eq_comm, ← mul_right_inj' hd'.ne', mul_add, mul_div_cancel₀ _ hd'.ne',
      mul_div_cancel₀ _ hd'.ne']
    exact_mod_cast Nat.div_add_mod n d
  rw [hdiv]
  generalize n / d = q
  generalize n % d = r at hlt
  unfold accuracyOfFraction
  split_ifs with hr
  · exact covers_exact (by simp [hr])
  · have hpos : (0 : ℚ) < r / d := by
      have : (0 : ℚ) < r := by exact_mod_cast Nat.pos_of_ne_zero hr
      positivity
    have hone : (r : ℚ) / d < 1 := (div_lt_one hd').mpr hlt
    rcases Nat.lt_trichotomy (2 * r) d with h | h | h
    · have hhalf : (r : ℚ) / d < 1 / 2 := by
        have : (2 : ℚ) * r < d := by exact_mod_cast h
        rw [div_lt_iff₀ hd']
        linarith
      rw [Nat.compare_eq_lt.mpr h]
      show (q : ℚ) < q + r / d ∧ (q : ℚ) + r / d < q + 1 / 2
      constructor <;> linarith
    · have hhalf : (r : ℚ) / d = 1 / 2 := by
        have : (2 : ℚ) * r = d := by exact_mod_cast h
        rw [div_eq_iff hd'.ne']
        linarith
      rw [Nat.compare_eq_eq.mpr h]
      show (q : ℚ) + r / d = q + 1 / 2
      rw [hhalf]
    · have hhalf : 1 / 2 < (r : ℚ) / d := by
        have : (d : ℚ) < 2 * r := by exact_mod_cast h
        rw [lt_div_iff₀ hd']
        linarith
      rw [Nat.compare_eq_gt.mpr h]
      show (q : ℚ) + 1 / 2 < q + r / d ∧ (q : ℚ) + r / d < q + 1
      constructor <;> linarith

/-- A quotient that lies in the interval of a float. -/
theorem div_eq {b : Binary} (hb : b.Canonical) (hm : 0 < b.mantissa) {m₁ m₂ : Nat} {e₁ e₂ : Int}
    (h₁ : 0 < m₁) (h₂ : 0 < m₂) (hv : b.Rounds (m₁ * 2 ^ e₁ / (m₂ * 2 ^ e₂))) :
    div double (.finite .positive m₁ e₁ h₁) (.finite .positive m₂ e₂ h₂) =
      .finite .positive b.mantissa b.exponent hm := by
  let target := min (e₁ - e₂) (double.targetExponent (totalExponent m₁ e₁ - totalExponent m₂ e₂))
  let shift := (e₁ - e₂ - target).toNat
  show roundWithAccuracy double .positive (m₁ <<< shift / m₂) target
    (accuracyOfFraction (m₁ <<< shift % m₂) m₂) = _
  have hle : target ≤ e₁ - e₂ := min_le_left _ _
  have hshift : (shift : Int) = e₁ - e₂ - target := Int.toNat_of_nonneg (by omega)
  have htarget : target ≤ max (m₁.log2 + e₁ - m₂.log2 - e₂ - 53) (-1074) := by
    refine (min_le_right _ _).trans ?_
    simp only [Format.targetExponent, totalExponent, Format.mantissaBits, Format.minExponent]
    norm_num
    omega
  clear_value shift target
  refine roundWithAccuracy_eq hb hm hv .positive ?_ ?_
  · have hvalue :
        (m₁ : ℚ) * 2 ^ e₁ / (m₂ * 2 ^ e₂) / 2 ^ target = ((m₁ <<< shift : Nat) : ℚ) / m₂ := by
      have hm₂ : (m₂ : ℚ) ≠ 0 := by exact_mod_cast h₂.ne'
      have h2 (e : Int) : (2 : ℚ) ^ e ≠ 0 := zpow_ne_zero e (by norm_num)
      have := h2 e₂
      have := h2 target
      rw [show e₁ = e₂ + target + shift by omega, zpow_add₀ (by norm_num), zpow_add₀ (by norm_num),
        zpow_natCast, Nat.shiftLeft_eq]
      push_cast
      field_simp
    rw [hvalue]
    exact covers_fraction h₂
  · by_cases hsmall : target ≤ -1074
    · omega
    · -- The dividend was shifted far enough for a quotient of 53 bits.
      have hexp : m₂.log2 + 53 ≤ m₁.log2 + shift := by omega
      have hbits : 2 ^ 52 ≤ m₁ <<< shift / m₂ := by
        rw [Nat.le_div_iff_mul_le h₂, Nat.shiftLeft_eq]
        calc 2 ^ 52 * m₂ ≤ 2 ^ 52 * 2 ^ (m₂.log2 + 1) :=
              Nat.mul_le_mul_left _ Nat.lt_log2_self.le
          _ = 2 ^ (m₂.log2 + 53) := by
            rw [← Nat.pow_add]
            congr 1
            omega
          _ ≤ 2 ^ (m₁.log2 + shift) := Nat.pow_le_pow_right (by decide) hexp
          _ = 2 ^ m₁.log2 * 2 ^ shift := Nat.pow_add 2 _ _
          _ ≤ m₁ * 2 ^ shift := Nat.mul_le_mul_right _ (Nat.log2_self_le h₁.ne')
      have hlog : 52 ≤ (m₁ <<< shift / m₂).log2 :=
        (Nat.le_log2 (by omega)).mpr hbits
      omega

def ofWhole (n : Nat) : Binary := ⟨false, n * 2 ^ (52 - n.log2), n.log2 - 52⟩

theorem log2_le_of_lt {n : Nat} (hpos : 0 < n) (hlt : n < 2 ^ 53) : n.log2 ≤ 52 := by
  have := (Nat.log2_lt hpos.ne').mpr hlt
  omega

theorem canonical_ofWhole {n : Nat} (hpos : 0 < n) (hlt : n < 2 ^ 53) : (ofWhole n).Canonical := by
  have hlog := log2_le_of_lt hpos hlt
  have hlow : 2 ^ n.log2 * 2 ^ (52 - n.log2) ≤ n * 2 ^ (52 - n.log2) :=
    Nat.mul_le_mul_right _ (Nat.log2_self_le hpos.ne')
  have hhigh : n * 2 ^ (52 - n.log2) < 2 ^ (n.log2 + 1) * 2 ^ (52 - n.log2) :=
    Nat.mul_lt_mul_of_pos_right Nat.lt_log2_self (by positivity)
  rw [← Nat.pow_add] at hlow hhigh
  rw [show n.log2 + (52 - n.log2) = 52 by omega] at hlow
  rw [show n.log2 + 1 + (52 - n.log2) = 53 by omega] at hhigh
  unfold ofWhole
  constructor <;> dsimp only <;> omega

theorem normal_ofWhole {n : Nat} (hpos : 0 < n) (hlt : n < 2 ^ 53) :
    2 ^ 52 ≤ (ofWhole n).mantissa := by
  rcases (canonical_ofWhole hpos hlt).normal with h | h
  · exact h
  · unfold ofWhole at h
    dsimp only at h
    omega

theorem value_ofWhole {n : Nat} (hpos : 0 < n) (hlt : n < 2 ^ 53) :
    ((ofWhole n).mantissa : ℚ) * 2 ^ (ofWhole n).exponent = n := by
  have hlog := log2_le_of_lt hpos hlt
  unfold ofWhole
  push_cast
  rw [mul_assoc, ← zpow_natCast, ← zpow_add₀ (by norm_num), show ((52 - n.log2 : Nat) : Int) +
    ((n.log2 : Int) - 52) = 0 by omega]
  simp

/-- A whole number below `2 ^ 53` is a float. -/
theorem ofNat_eq {n : Nat} (hpos : 0 < n) (hlt : n < 2 ^ 53) :
    ofNat double n = (ofWhole n).unpacked := by
  have hlog := log2_le_of_lt hpos hlt
  have hcanonical := canonical_ofWhole hpos hlt
  have hmantissa : 0 < (ofWhole n).mantissa := Nat.mul_pos hpos (by positivity)
  have hround : ofNat double n = UnpackedFloat.round double .positive n 0 := by
    unfold ofNat ofInt UnpackedFloat.normalize
    rw [Int.compare_eq_gt.mpr (by omega)]
    rfl
  have hshift : (0 - max ((n.log2 : Int) + 0 - 52) (-1074)).toNat = 52 - n.log2 := by omega
  have hexponent : (0 : Int) - (52 - n.log2 : Nat) = n.log2 - 52 := by omega
  rw [hround, Binary.unpacked_of_mantissa_pos hmantissa]
  unfold UnpackedFloat.round decreaseExponent
  dsimp only
  rw [targetExponent_eq, hshift, Nat.shiftLeft_eq, hexponent]
  refine roundWithAccuracy_eq hcanonical hmantissa (.self _) .positive (covers_exact ?_) ?_
  · have h2 : (2 : ℚ) ^ (ofWhole n).exponent ≠ 0 := zpow_ne_zero _ (by norm_num)
    exact mul_div_cancel_right₀ _ h2
  · have hbits : 52 ≤ (n * 2 ^ (52 - n.log2)).log2 :=
      (Nat.le_log2 hmantissa.ne').mpr (normal_ofWhole hpos hlt)
    omega

/-! ## Reading decimals -/

theorem zpow_eq_div (x : ℚ) (hx : x ≠ 0) (e : Int) : x ^ e = x ^ e.toNat / x ^ (-e).toNat := by
  rw [← zpow_natCast, ← zpow_natCast, ← zpow_sub₀ hx]
  congr 1
  omega

/-- The table of powers of ten holds what it says. -/
theorem powersOfTen_table : ∀ k (h : k < Float.exactlyRepresentablePowersOfTen.size),
    Float.exactlyRepresentablePowersOfTen[k].isFinite ∧
      (Binary.ofFloat Float.exactlyRepresentablePowersOfTen[k]).negative = false ∧
      (Binary.ofFloat Float.exactlyRepresentablePowersOfTen[k]).mantissa *
          2 ^ (Binary.ofFloat Float.exactlyRepresentablePowersOfTen[k]).exponent.toNat =
        10 ^ k * 2 ^ (-(Binary.ofFloat Float.exactlyRepresentablePowersOfTen[k]).exponent).toNat := by
  decide +kernel

/-- The powers of ten up to the twenty-second are floats. -/
theorem unpack_powersOfTen {k : Nat} (h : k < Float.exactlyRepresentablePowersOfTen.size) :
    ∃ (m : Nat) (e : Int) (hm : 0 < m),
      Float.exactlyRepresentablePowersOfTen[k].toModel.unpack = .finite .positive m e hm ∧
        (m : ℚ) * 2 ^ e = 10 ^ k := by
  obtain ⟨hfinite, hsign, hvalue⟩ := powersOfTen_table k h
  have hunpack := Binary.unpack_ofFloat hfinite
  generalize Binary.ofFloat Float.exactlyRepresentablePowersOfTen[k] = b at hsign hvalue hunpack
  have hm : 0 < b.mantissa := by
    rw [Nat.pos_iff_ne_zero]
    intro h0
    rw [h0, Nat.zero_mul] at hvalue
    have : 0 < 10 ^ k * 2 ^ (-b.exponent).toNat := by positivity
    omega
  refine ⟨b.mantissa, b.exponent, hm, ?_, ?_⟩
  · rw [hunpack, Binary.unpacked_of_mantissa_pos hm, Binary.sign, hsign]
    rfl
  · have hvalue' : (b.mantissa : ℚ) * 2 ^ b.exponent.toNat = 10 ^ k * 2 ^ (-b.exponent).toNat := by
      exact_mod_cast hvalue
    rw [zpow_eq_div 2 (by norm_num), ← mul_div_assoc, hvalue', mul_div_cancel_right₀]
    positivity

/-- A decimal of few digits with a small exponent is read with one operation on floats. -/
theorem ofScientific_fast {b : Binary} (hb : b.Canonical) (hm : 0 < b.mantissa)
    (hsign : b.negative = false) {d k : Nat} {negative : Bool} (hd : 0 < d) (hlt : d < 2 ^ 53)
    (hk : k ≤ 22) (hv : b.Rounds (if negative then d / 10 ^ k else d * 10 ^ k)) :
    Float.ofScientific d negative k = b.packed := by
  have hsize : k < Float.exactlyRepresentablePowersOfTen.size := by
    show k < 23
    omega
  obtain ⟨m, e, hpos, hpower, hvalue⟩ := unpack_powersOfTen hsize
  have hcanonical := canonical_ofWhole hd hlt
  have hmantissa : 0 < (ofWhole d).mantissa := Nat.mul_pos hd (by positivity)
  have hwhole : d.toUInt64.toFloat.toModel.unpack =
      .finite .positive (ofWhole d).mantissa (ofWhole d).exponent hmantissa := by
    have hnat : d.toUInt64.toNat = d := by
      simp [Nat.toUInt64]
      omega
    show (Float.Model.pack (ofNat double d.toUInt64.toNat)).unpack = _
    rw [hnat, ofNat_eq hd hlt]
    exact (Binary.unpack_packed hcanonical).trans (Binary.unpacked_of_mantissa_pos hmantissa)
  have hpacked : b.packed = .ofModel (.pack (.finite .positive b.mantissa b.exponent hm)) := by
    unfold Binary.packed
    rw [Binary.unpacked_of_mantissa_pos hm, Binary.sign, hsign]
    rfl
  unfold Float.ofScientific
  rw [dif_pos ⟨hlt, hk⟩, hpacked]
  cases negative with
  | true =>
    show Float.ofModel (.pack (div double d.toUInt64.toFloat.toModel.unpack
      Float.exactlyRepresentablePowersOfTen[k].toModel.unpack)) = _
    rw [hwhole, hpower, div_eq hb hm hmantissa hpos]
    rw [value_ofWhole hd hlt, hvalue]
    exact hv
  | false =>
    show Float.ofModel (.pack (mul double d.toUInt64.toFloat.toModel.unpack
      Float.exactlyRepresentablePowersOfTen[k].toModel.unpack)) = _
    rw [hwhole, hpower, mul_eq hb hm hmantissa hpos]
    · exact (normal_ofWhole hd hlt).trans (Nat.le_mul_of_pos_right _ hpos)
    · rw [value_ofWhole hd hlt, hvalue]
      exact hv

/-- The exponents that a decimal within the range of floats can have. -/
theorem exponent_bounds {d : Nat} {k : Int} (hd : 0 < d)
    (hlow : (2 : ℚ) ^ (-1075 : Int) ≤ d * 10 ^ k) (hhigh : (d : ℚ) * 10 ^ k < 2 ^ (1024 : Int)) :
    k < 1024 ∧ -(1076 + d.log2) < k := by
  have hone : (1 : ℚ) ≤ d := by exact_mod_cast hd
  have hpow : (0 : ℚ) < 10 ^ k := by positivity
  constructor
  · by_contra hk
    have hbig : (2 : ℚ) ^ (1024 : Int) ≤ d * 10 ^ k :=
      calc (2 : ℚ) ^ (1024 : Int) ≤ 2 ^ k := zpow_le_zpow_right₀ (by norm_num) (by omega)
        _ ≤ 10 ^ k := zpow_le_zpow_left₀ (by omega) (by norm_num) (by norm_num)
        _ ≤ d * 10 ^ k := le_mul_of_one_le_left hpow.le hone
    linarith
  · by_contra hk
    have hdigits : (d : ℚ) < 2 ^ (d.log2 + 1 : Int) := by
      have : d < 2 ^ (d.log2 + 1) := Nat.lt_log2_self
      exact_mod_cast this
    have hten : (10 : ℚ) ^ k ≤ 2 ^ k := by
      have hopposite : (2 : ℚ) ^ (-k) ≤ 10 ^ (-k) :=
        zpow_le_zpow_left₀ (by omega) (by norm_num) (by norm_num)
      have := inv_anti₀ (by positivity) hopposite
      rwa [← zpow_neg, ← zpow_neg, neg_neg] at this
    have hsmall : (d : ℚ) * 10 ^ k < 2 ^ (-1075 : Int) :=
      calc (d : ℚ) * 10 ^ k < 2 ^ (d.log2 + 1 : Int) * 10 ^ k := mul_lt_mul_of_pos_right hdigits hpow
        _ ≤ 2 ^ (d.log2 + 1 : Int) * 2 ^ k := mul_le_mul_of_nonneg_left hten (by positivity)
        _ = 2 ^ (d.log2 + 1 + k : Int) := (zpow_add₀ (by norm_num) _ _).symm
        _ ≤ 2 ^ (-1075 : Int) := zpow_le_zpow_right₀ (by norm_num) (by omega)
    linarith

/-- A decimal in the interval of a float is read through the exact quotient or product. -/
theorem ofScientific_slow {b : Binary} (hb : b.Canonical) (hm : 0 < b.mantissa) {d : Nat} {k : Int}
    (hd : 0 < d) (hv : b.Rounds (d * 10 ^ k)) :
    ofScientific double d k = .finite .positive b.mantissa b.exponent hm := by
  obtain ⟨hlow, hhigh⟩ := hv.magnitude hb hm
  obtain ⟨hupper, hlower⟩ := exponent_bounds hd hlow hhigh
  unfold ofScientific
  rw [dif_neg hd.ne', if_neg (by norm_num; omega), if_neg (by norm_num; omega)]
  split_ifs with hk
  · have hpos : 0 < 10 ^ k.toNat := by positivity
    refine mul_eq hb hm _ hpos ?_ ?_
    · rw [Nat.shiftLeft_eq]
      calc 2 ^ 52 ≤ 1 * 2 ^ double.mantissaBits * 1 := by decide
        _ ≤ d * 2 ^ double.mantissaBits * 10 ^ k.toNat := by
          gcongr <;> omega
    · convert hv using 1
      rw [Nat.shiftLeft_eq]
      push_cast
      rw [zpow_neg, zpow_natCast, mul_one, ← zpow_natCast 10 k.toNat, Int.toNat_of_nonneg hk]
      field_simp
  · have hpos : 0 < 10 ^ (-k).toNat := by positivity
    refine div_eq hb hm hd hpos ?_
    convert hv using 1
    push_cast
    rw [mul_one, mul_one, ← zpow_natCast, Int.toNat_of_nonneg (by omega), zpow_neg,
      div_inv_eq_mul]

/-- **A decimal is read as the float whose interval it lies in.** -/
theorem ofScientific_eq {b : Binary} (hb : b.Canonical) (hm : 0 < b.mantissa)
    (hsign : b.negative = false) {d : Nat} {k : Int} (hd : 0 < d) (hv : b.Rounds (d * 10 ^ k)) :
    Float.ofScientific d (k < 0) k.natAbs = b.packed := by
  by_cases hfast : d < 2 ^ 53 ∧ k.natAbs ≤ 22
  · refine ofScientific_fast hb hm hsign hd hfast.1 hfast.2 ?_
    convert hv using 1
    by_cases hk : k < 0
    · rw [if_pos (by simpa using hk), ← zpow_natCast, show (k.natAbs : Int) = -k by omega, zpow_neg,
        div_inv_eq_mul]
    · rw [if_neg (by simpa using hk), ← zpow_natCast, show (k.natAbs : Int) = k by omega]
  · have hexponent : (if decide (k < 0) = true then Int.negOfNat k.natAbs else .ofNat k.natAbs) = k := by
      by_cases hk : k < 0
      · rw [if_pos (by simpa using hk), Int.negOfNat_eq]
        show -(k.natAbs : Int) = k
        omega
      · rw [if_neg (by simpa using hk)]
        show (k.natAbs : Int) = k
        omega
    unfold Float.ofScientific Binary.packed
    rw [dif_neg hfast, Binary.unpacked_of_mantissa_pos hm, Binary.sign, hsign, hexponent]
    show Float.ofModel (.pack (ofScientific double d k)) = _
    rw [ofScientific_slow hb hm hd hv]
    rfl

end DiceScript.Number
