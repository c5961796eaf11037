import DiceScript.Proofs.Operator.Exactness

/-!
# Powers of integers

A power of integers is a product that grows by one factor a step. Two things can end the growth early:
the product leaves 64 bits, or the steps run out. Every product on the way is itself a power of the
base, and once the powers of a base have left 64 bits they do not come back, so the first power that
does not fit decides between the two, against the number of steps that are allowed.

- `leaving` — the exponents at which the powers of a base do not fit.
- `not_fits_pow_of_le` — powers that have left 64 bits stay outside.
- `powerSteps_cases` — how the steps end, from any power of the base on.
- `powers_exact_and_failures_apart` — the power, the overflow and the timeout.
-/

namespace DiceScript

namespace Number

/-! ## Powers that do not fit -/

theorem natAbs_le_of_fits {n : ℤ} (h : Fits n) : n.natAbs ≤ 9223372036854775808 := by
  obtain ⟨hlow, hhigh⟩ := h
  omega

theorem le_natAbs_of_not_fits {n : ℤ} (h : ¬ Fits n) : 9223372036854775808 ≤ n.natAbs := by
  unfold Fits at h
  omega

/-- Powers of zero, one and minus one stay where they are, and those of other bases at least double. -/
theorem not_fits_pow_succ {b : ℤ} {k : ℕ} (h : ¬ Fits (b ^ k)) : ¬ Fits (b ^ (k + 1)) := by
  have hlarge := le_natAbs_of_not_fits h
  rw [Int.natAbs_pow] at hlarge
  have hbase : 2 ≤ b.natAbs := by
    by_contra hsmall
    have hone : b.natAbs ^ k ≤ 1 ^ k := Nat.pow_le_pow_left (by omega) k
    rw [one_pow] at hone
    omega
  intro hfits
  have hsize := natAbs_le_of_fits hfits
  rw [Int.natAbs_pow, pow_succ] at hsize
  have hdouble : b.natAbs ^ k * 2 ≤ b.natAbs ^ k * b.natAbs := Nat.mul_le_mul_left _ hbase
  omega

theorem not_fits_pow_of_le {b : ℤ} {k n : ℕ} (h : ¬ Fits (b ^ k)) (hle : k ≤ n) :
    ¬ Fits (b ^ n) := by
  induction n, hle using Nat.le_induction with
  | base => exact h
  | succ n _ ih => exact not_fits_pow_succ ih

end Number

namespace Operator

open Number (Fits)

/-- The exponents, from one on, at which the power of a base does not fit. -/
def leaving (b : ℤ) : Set ℕ := {k | 0 < k ∧ ¬ Fits (b ^ k)}

/-! ## Steps -/

/-- From a power of the base on, the steps end in the power that was asked for, or at the first power
that does not fit, or after as many steps as there is room for. -/
theorem powerSteps_cases (limit : UInt64) (b : Int64) (exponent room : ℕ) {j : ℕ} {product : Int64}
    (h : product.toInt = b.toInt ^ j) :
    (∃ p : Int64, powerSteps limit b exponent room product = .ok p ∧
      p.toInt = b.toInt ^ (j + exponent) ∧ exponent ≤ room) ∨
    (powerSteps limit b exponent room product = .error (.overflow .pow) ∧
      ∃ k, j < k ∧ k ≤ j + exponent ∧ k ≤ j + room ∧ ¬ Fits (b.toInt ^ k) ∧
        ∀ i, j < i → i < k → Fits (b.toInt ^ i)) ∨
    (powerSteps limit b exponent room product = .error (.timeout .exponentiation limit) ∧
      room < exponent ∧ Fits (b.toInt ^ (j + room))) := by
  induction exponent generalizing room j product with
  | zero => exact .inl ⟨product, rfl, h, Nat.zero_le _⟩
  | succ exponent ih =>
    cases room with
    | zero => exact .inr (.inr ⟨rfl, Nat.succ_pos _, h ▸ Number.fits_toInt product⟩)
    | succ room =>
      have hnext : product.toInt * b.toInt = b.toInt ^ (j + 1) := by rw [h, pow_succ]
      unfold powerSteps
      rw [hnext]
      by_cases hfits : Fits (b.toInt ^ (j + 1))
      · rw [Number.fit?_of_fits hfits]
        dsimp only
        have hexponent : j + 1 + exponent = j + (exponent + 1) := by omega
        have hroom : j + 1 + room = j + (room + 1) := by omega
        rcases ih room (Number.toInt_ofInt hfits) with
          ⟨p, hp, hvalue, hle⟩ | ⟨hover, k, hjk, hk, hk', hleaves, hbefore⟩ | ⟨hout, hlt, hlast⟩
        · exact .inl ⟨p, hp, hexponent ▸ hvalue, by omega⟩
        · refine .inr (.inl ⟨hover, k, by omega, by omega, by omega, hleaves, ?_⟩)
          intro i hi hik
          rcases Nat.lt_or_ge (j + 1) i with hlater | hfirst
          · exact hbefore i hlater hik
          · obtain rfl : i = j + 1 := by omega
            exact hfits
        · exact .inr (.inr ⟨hout, by omega, hroom ▸ hlast⟩)
      · rw [Number.fit?_of_not_fits hfits]
        refine .inr (.inl ⟨rfl, j + 1, by omega, by omega, by omega, hfits, ?_⟩)
        intro i hi hik
        omega

theorem binary_pow_eq (limits : Limits) {b e : Int64} (he : 0 ≤ e.toInt) (hzero : ¬ (b = 0 ∧ e = 0)) :
    binary limits .pow (.integer b) (.integer e) =
      (powerSteps limits.maxExponentSteps b e.toInt.toNat limits.maxExponentSteps.toNat 1).map
        .integer := by
  show power limits.maxExponentSteps (.integer b) (.integer e) = _
  have hboth : ¬ (b.toInt = 0 ∧ e.toInt = 0) := by
    rintro ⟨hb, he⟩
    exact hzero ⟨Int64.toInt_inj.mp hb, Int64.toInt_inj.mp he⟩
  unfold power
  dsimp only
  rw [if_neg (by omega), if_neg hboth]

/-! ## Powers -/

/-- How a power of integers ends: in the exact power, in an overflow, or in a timeout that tells the
limit. The first two are told by conditions on base, exponent and limit, and the third is what is
left. -/
structure PowerEnds (limit : UInt64) (b : ℤ) (e : ℕ) (result : Except Cause Value) : Prop where
  exact : (∃ p : Int64, p.toInt = b ^ e ∧ result = .ok (.integer p)) ↔
    Fits (b ^ e) ∧ e ≤ limit.toNat
  overflow : result = .error (.overflow .pow) ↔
    ∃ k, IsLeast (leaving b) k ∧ k ≤ e ∧ k ≤ limit.toNat
  timeout : (∃ cause : Cause, cause.kind = .exponentiationTimeout ∧ cause.iterations = some limit ∧
      result = .error cause) ↔
    ¬ (Fits (b ^ e) ∧ e ≤ limit.toNat) ∧ ¬ ∃ k, IsLeast (leaving b) k ∧ k ≤ e ∧ k ≤ limit.toNat

section PowerEnds

variable {limit : UInt64} {b : ℤ} {e : ℕ}

theorem powerEnds_ok {p : Int64} (hp : p.toInt = b ^ e) (he : e ≤ limit.toNat) :
    PowerEnds limit b e (.ok (.integer p)) := by
  have hfits : Fits (b ^ e) := hp ▸ Number.fits_toInt p
  have hnone : ¬ ∃ k, IsLeast (leaving b) k ∧ k ≤ e ∧ k ≤ limit.toNat := by
    rintro ⟨k, hk, hke, -⟩
    exact Number.not_fits_pow_of_le hk.1.2 hke hfits
  refine ⟨⟨fun _ => ⟨hfits, he⟩, fun _ => ⟨p, hp, rfl⟩⟩, ⟨?_, ?_⟩, ⟨?_, ?_⟩⟩
  · intro h
    cases h
  · intro h
    exact absurd h hnone
  · rintro ⟨cause, -, -, h⟩
    cases h
  · rintro ⟨hnot, -⟩
    exact absurd ⟨hfits, he⟩ hnot

theorem powerEnds_overflow {k : ℕ} (hk : IsLeast (leaving b) k) (hke : k ≤ e)
    (hlimit : k ≤ limit.toNat) : PowerEnds limit b e (.error (.overflow .pow)) := by
  refine ⟨⟨?_, ?_⟩, ⟨fun _ => ⟨k, hk, hke, hlimit⟩, fun _ => rfl⟩, ⟨?_, ?_⟩⟩
  · rintro ⟨p, -, h⟩
    cases h
  · rintro ⟨hfits, -⟩
    exact absurd hfits (Number.not_fits_pow_of_le hk.1.2 hke)
  · rintro ⟨cause, hkind, -, h⟩
    cases h
    cases hkind
  · rintro ⟨-, hnone⟩
    exact absurd ⟨k, hk, hke, hlimit⟩ hnone

theorem powerEnds_timeout (hlimit : limit.toNat < e) (hlast : Fits (b ^ limit.toNat)) :
    PowerEnds limit b e (.error (.timeout .exponentiation limit)) := by
  have hmany : ¬ (Fits (b ^ e) ∧ e ≤ limit.toNat) := by
    rintro ⟨-, hle⟩
    omega
  have hnone : ¬ ∃ k, IsLeast (leaving b) k ∧ k ≤ e ∧ k ≤ limit.toNat := by
    rintro ⟨k, hk, -, hle⟩
    exact Number.not_fits_pow_of_le hk.1.2 hle hlast
  refine ⟨⟨?_, ?_⟩, ⟨?_, ?_⟩, ⟨fun _ => ⟨hmany, hnone⟩, fun _ => ⟨_, rfl, rfl, rfl⟩⟩⟩
  · rintro ⟨p, -, h⟩
    cases h
  · intro h
    exact absurd h hmany
  · intro h
    cases h
  · intro h
    exact absurd h hnone

end PowerEnds

/-- **Powers are exact, and their failures are told apart.** For an exponent that is not negative, and
but for zero to the power of zero, a power yields the exact number if that fits and there are steps
enough; it overflows if the first power that does not fit comes up to the exponent and within the steps;
and else it gives up and tells the limit. Zero to the power of zero is refused. -/
theorem powers_exact_and_failures_apart (limits : Limits) (b e : Int64) (he : 0 ≤ e.toInt) :
    (¬ (b = 0 ∧ e = 0) → PowerEnds limits.maxExponentSteps b.toInt e.toInt.toNat
      (binary limits .pow (.integer b) (.integer e))) ∧
    (b = 0 ∧ e = 0 → ∃ cause : Cause, cause.kind = .operationError ∧
      binary limits .pow (.integer b) (.integer e) = .error cause) := by
  constructor
  · intro hzero
    rw [binary_pow_eq limits he hzero]
    have hone : (1 : Int64).toInt = b.toInt ^ 0 := by rw [pow_zero, Int64.toInt_one]
    rcases powerSteps_cases limits.maxExponentSteps b e.toInt.toNat limits.maxExponentSteps.toNat hone
      with ⟨p, hp, hvalue, hle⟩ | ⟨hover, k, hpos, hk, hlimit, hleaves, hbefore⟩ | ⟨hout, hlt, hlast⟩
    · rw [hp]
      rw [zero_add] at hvalue
      exact powerEnds_ok hvalue hle
    · rw [hover]
      rw [zero_add] at hk hlimit
      have hleast : IsLeast (leaving b.toInt) k := by
        refine ⟨⟨hpos, hleaves⟩, ?_⟩
        rintro i ⟨hi, hnot⟩
        by_contra hless
        exact hnot (hbefore i hi (by omega))
      exact powerEnds_overflow hleast hk hlimit
    · rw [hout]
      rw [zero_add] at hlast
      exact powerEnds_timeout hlt hlast
  · rintro ⟨rfl, rfl⟩
    exact ⟨.zeroPower "0", rfl, rfl⟩

/-- The least integer is a power of minus two, reached with the last step that is allowed: its opposite
would not fit. -/
theorem powers_exact_and_failures_apart_least :
    0 ≤ (63 : Int64).toInt ∧ ¬ ((-2 : Int64) = 0 ∧ (63 : Int64) = 0) ∧
      ∃ p : Int64, p.toInt = (-2 : Int64).toInt ^ (63 : Int64).toInt.toNat ∧
        binary { maxExponentSteps := 63 } .pow (.integer (-2)) (.integer 63) = .ok (.integer p) := by
  have hnonneg : 0 ≤ (63 : Int64).toInt := by decide
  have hzero : ¬ ((-2 : Int64) = 0 ∧ (63 : Int64) = 0) := by decide
  have hends := (powers_exact_and_failures_apart { maxExponentSteps := 63 } (-2) 63 hnonneg).1 hzero
  exact ⟨hnonneg, hzero, hends.exact.mpr ⟨by decide, by decide⟩⟩

end Operator

end DiceScript
