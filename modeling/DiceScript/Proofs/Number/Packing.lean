import DiceScript.Number.Binary
import Mathlib

/-!
# Parts and bits

A finite float and its parts determine each other. The parts that occur are the canonical ones: the
mantissa is below `2 ^ 53`, and it is at least `2 ^ 52` unless the exponent is the least one.

- `Binary.Canonical` — the parts of floats of 64 bits.
- `Binary.bits`, `Binary.packed` — the bits and the float that parts stand for.
- `Binary.packed_ofFloat`, `Binary.ofFloat_packed` — floats and parts determine each other.
- `Binary.isFinite_neg` — the opposite of a finite float is finite.
-/

namespace DiceScript.Number

open Float.Model (Format UnpackedFloat)
open Float.Model.UnpackedFloat (Sign packComponents unpackMantissa unpackExponent unpackSign)

abbrev double : Format := Format.binary64

/-! ## Fields of bits -/

theorem toNat_unpackMantissa (v : BitVec 64) :
    (@unpackMantissa double v).toNat = v.toNat % 4503599627370496 := by
  simp [unpackMantissa]

theorem toNat_unpackExponent (v : BitVec 64) :
    (@unpackExponent double v).toNat = v.toNat / 4503599627370496 % 2048 := by
  simp [unpackExponent, Nat.shiftRight_eq_div_pow]

theorem toNat_unpackSign (v : BitVec 64) :
    (@unpackSign double v).toNat = v.toNat / 4503599627370496 / 2048 := by
  simp [unpackSign, Nat.shiftRight_eq_div_pow]
  omega

theorem toNat_append {n k : Nat} (x : BitVec n) (y : BitVec k) :
    (x ++ y).toNat = x.toNat * 2 ^ k + y.toNat := by
  rw [BitVec.toNat_append, ← Nat.shiftLeft_add_eq_or_of_lt y.isLt, Nat.shiftLeft_eq]

theorem toNat_packComponents (s : Sign) (e : BitVec 11) (m : BitVec 52) :
    (packComponents double s e m).toNat =
      (s.toBitVec.toNat * 2048 + e.toNat) * 4503599627370496 + m.toNat := by
  unfold packComponents
  rw [toNat_append, toNat_append]
  rfl

namespace Binary

/-! ## Canonical parts -/

/-- The parts that a float of 64 bits can have. -/
structure Canonical (b : Binary) : Prop where
  mantissa_lt : b.mantissa < 9007199254740992
  le_exponent : -1074 ≤ b.exponent
  exponent_le : b.exponent ≤ 971
  normal : 4503599627370496 ≤ b.mantissa ∨ b.exponent = -1074

def sign (b : Binary) : Sign := if b.negative then .negative else .positive

def unpacked (b : Binary) : UnpackedFloat :=
  if h : b.mantissa = 0 then .zero b.sign
  else .finite b.sign b.mantissa b.exponent (Nat.pos_of_ne_zero h)

def packed (b : Binary) : Float := .ofModel (.pack b.unpacked)

def bits (b : Binary) : Nat :=
  (if b.negative then 9223372036854775808 else 0) +
    if b.mantissa < 4503599627370496 then b.mantissa
    else (b.exponent + 1074).toNat * 4503599627370496 + b.mantissa

theorem isFinite_iff (x : Float) :
    x.isFinite ↔ x.toBits.toNat / 4503599627370496 % 2048 ≠ 2047 := by
  have hiff : @unpackExponent double x.toBits.toBitVec = -1#11 ↔
      x.toBits.toNat / 4503599627370496 % 2048 = 2047 := by
    rw [← BitVec.toNat_inj, toNat_unpackExponent]
    simp
  show (UnpackedFloat.unpack double x.toBits.toBitVec).isFinite = true ↔ _
  unfold UnpackedFloat.unpack
  dsimp only
  rw [Ne, ← hiff]
  split_ifs with hinf <;> simp only [UnpackedFloat.isFinite, hinf, not_true, not_false_eq_true]
  · simp
  · simp

theorem canonical_ofFloat {x : Float} (hx : x.isFinite) : (ofFloat x).Canonical := by
  rw [isFinite_iff] at hx
  unfold ofFloat fractions
  dsimp only
  split
  · constructor <;> dsimp only <;> omega
  · rename_i h
    rw [beq_iff_eq] at h
    constructor <;> dsimp only <;> omega

theorem bits_ofFloat (x : Float) : (ofFloat x).bits = x.toBits.toNat := by
  have hlt := x.toBits.toNat_lt
  unfold ofFloat bits fractions
  dsimp only
  split
  · rename_i h
    rw [beq_iff_eq] at h
    split_ifs <;> simp at * <;> omega
  · rename_i h
    rw [beq_iff_eq] at h
    split_ifs <;> simp at * <;> omega

/-! ## Packing -/

theorem toNat_toBits_packed {b : Binary} (h : b.Canonical) : b.packed.toBits.toNat = b.bits := by
  obtain ⟨h1, h2, h3, h4⟩ := h
  have hs : b.sign.toBitVec.toNat = if b.negative then 1 else 0 := by
    cases hb : b.negative <;> simp [sign, hb, Sign.toBitVec]
  show (UnpackedFloat.pack double b.unpacked).toNat = b.bits
  unfold unpacked bits
  split
  · rename_i h0
    rw [UnpackedFloat.pack, UnpackedFloat.packedZero, toNat_packComponents, hs, h0]
    cases b.negative <;> simp
  · rename_i h0
    have hbias : (b.exponent + double.exponentBias + double.mantissaBitsWithoutImplicit).toNat =
        (b.exponent + 1075).toNat := by
      simp [Format.exponentBias]
      omega
    have hfin : ¬ 2 ^ double.exponentBits ≤ (b.exponent + 1075).toNat + 1 := by
      simp
      omega
    rw [UnpackedFloat.pack, hbias]
    dsimp only
    rw [if_neg hfin]
    -- A mantissa without its leading bit is packed as it is, any other without that bit.
    by_cases hn : b.mantissa < 4503599627370496
    · have hlog : ¬ b.mantissa.log2 + 1 = double.mantissaBits := by
        have := (Nat.log2_lt h0).mpr (show b.mantissa < 2 ^ 52 by omega)
        simp [Format.mantissaBits]
        omega
      rw [if_neg hlog, toNat_packComponents, hs, if_pos hn, BitVec.toNat_ofNat, BitVec.toNat_ofNat]
      cases b.negative <;> simp <;> omega
    · have hlog : b.mantissa.log2 + 1 = double.mantissaBits := by
        have := (Nat.log2_lt h0).mpr (show b.mantissa < 2 ^ 53 by omega)
        have := (Nat.le_log2 h0).mpr (show 2 ^ 52 ≤ b.mantissa by omega)
        simp [Format.mantissaBits]
        omega
      rw [if_pos hlog, toNat_packComponents, hs, if_neg hn, BitVec.toNat_ofNat, BitVec.toNat_ofNat]
      cases b.negative <;> simp <;> omega

theorem packed_ofFloat {x : Float} (hx : x.isFinite) : (ofFloat x).packed = x := by
  apply Float.toBits_inj.mp
  apply UInt64.toNat_inj.mp
  rw [toNat_toBits_packed (canonical_ofFloat hx), bits_ofFloat]

theorem ofFloat_packed {b : Binary} (h : b.Canonical) : ofFloat b.packed = b := by
  unfold ofFloat
  rw [toNat_toBits_packed h]
  obtain ⟨h1, h2, h3, h4⟩ := h
  obtain ⟨n, m, e⟩ := b
  unfold bits fractions
  dsimp only at *
  split_ifs <;> simp_all <;> omega

theorem isFinite_packed {b : Binary} (h : b.Canonical) : b.packed.isFinite := by
  rw [isFinite_iff, toNat_toBits_packed h]
  obtain ⟨h1, h2, h3, h4⟩ := h
  unfold bits
  split_ifs <;> omega

/-! ## Unpacking -/

theorem sign_ofFloat (x : Float) :
    Sign.ofBitVec (@unpackSign double x.toBits.toBitVec) = (ofFloat x).sign := by
  have hs : @unpackSign double x.toBits.toBitVec = 0#1 ↔ ¬ (ofFloat x).negative = true := by
    rw [← BitVec.toNat_inj, toNat_unpackSign]
    have hlt := x.toBits.toNat_lt
    unfold ofFloat fractions
    dsimp only
    split <;> simp <;> omega
  unfold Sign.ofBitVec sign
  by_cases h : (ofFloat x).negative = true
  · rw [if_neg (fun h0 => hs.mp h0 h), if_pos h]
  · rw [if_pos (hs.mpr h), if_neg h]

theorem ofFloat_of_power_eq_zero {x : Float} (h : x.toBits.toNat / 4503599627370496 % 2048 = 0) :
    (ofFloat x).mantissa = x.toBits.toNat % 4503599627370496 ∧ (ofFloat x).exponent = -1074 := by
  unfold ofFloat fractions
  dsimp only
  rw [if_pos (by simp [h])]
  exact ⟨rfl, rfl⟩

theorem ofFloat_of_power_ne_zero {x : Float} (h : x.toBits.toNat / 4503599627370496 % 2048 ≠ 0) :
    (ofFloat x).mantissa = x.toBits.toNat % 4503599627370496 + 4503599627370496 ∧
      (ofFloat x).exponent = ((x.toBits.toNat / 4503599627370496 % 2048 : Nat) : Int) - 1075 := by
  unfold ofFloat fractions
  dsimp only
  rw [if_neg (by simpa using h)]
  exact ⟨rfl, rfl⟩

theorem unpacked_of_mantissa_eq_zero {b : Binary} (h : b.mantissa = 0) :
    b.unpacked = .zero b.sign := dif_pos h

theorem unpacked_of_mantissa_pos {b : Binary} (h : 0 < b.mantissa) :
    b.unpacked = .finite b.sign b.mantissa b.exponent h := dif_neg h.ne'

theorem unpack_ofFloat {x : Float} (hx : x.isFinite) : x.toModel.unpack = (ofFloat x).unpacked := by
  rw [isFinite_iff] at hx
  have hexp := toNat_unpackExponent x.toBits.toBitVec
  have hman := toNat_unpackMantissa x.toBits.toBitVec
  have hinf : @unpackExponent double x.toBits.toBitVec ≠ -1#11 := by
    rw [Ne, ← BitVec.toNat_inj, hexp]
    simpa using hx
  show UnpackedFloat.unpack double x.toBits.toBitVec = _
  unfold UnpackedFloat.unpack
  dsimp only
  rw [sign_ofFloat, if_neg hinf]
  by_cases h0 : @unpackExponent double x.toBits.toBitVec = 0#11
  · rw [h0] at hexp
    obtain ⟨hm, he⟩ := ofFloat_of_power_eq_zero hexp.symm
    rw [if_pos h0]
    split
    · rename_i hz
      rw [hz] at hman
      rw [unpacked_of_mantissa_eq_zero (hm.trans hman.symm)]
    · rename_i hz
      have hpos : 0 < (ofFloat x).mantissa := by
        rw [hm, Nat.pos_iff_ne_zero]
        exact fun h => hz (BitVec.eq_of_toNat_eq (hman.trans h))
      rw [unpacked_of_mantissa_pos hpos]
      congr 1
      · exact hman.trans hm.symm
      · rw [he, h0]
        rfl
  · have hpower : x.toBits.toNat / 4503599627370496 % 2048 ≠ 0 :=
      fun h => h0 (BitVec.eq_of_toNat_eq (hexp.trans h))
    obtain ⟨hm, he⟩ := ofFloat_of_power_ne_zero hpower
    have hpos : 0 < (ofFloat x).mantissa := by omega
    rw [if_neg h0, unpacked_of_mantissa_pos hpos]
    congr 1
    · rw [toNat_append, hman, hm]
      exact Nat.add_comm _ _
    · rw [hexp, he]
      rfl

theorem unpack_packed {b : Binary} (h : b.Canonical) : b.packed.toModel.unpack = b.unpacked := by
  rw [unpack_ofFloat (isFinite_packed h), ofFloat_packed h]

/-! ## Opposites -/

def opposite (b : Binary) : Binary := { b with negative := !b.negative }

theorem Canonical.opposite {b : Binary} (h : b.Canonical) : b.opposite.Canonical :=
  ⟨h.mantissa_lt, h.le_exponent, h.exponent_le, h.normal⟩

theorem unpacked_opposite (b : Binary) : b.opposite.unpacked = b.unpacked.neg := by
  have hs : b.opposite.sign = -b.sign := by
    cases hb : b.negative <;> simp [sign, Binary.opposite, hb] <;> rfl
  rcases Nat.eq_zero_or_pos b.mantissa with h | h
  · have h' : b.opposite.mantissa = 0 := h
    rw [unpacked_of_mantissa_eq_zero h, unpacked_of_mantissa_eq_zero h', hs]
    rfl
  · have h' : 0 < b.opposite.mantissa := h
    rw [unpacked_of_mantissa_pos h, unpacked_of_mantissa_pos h', hs]
    rfl

theorem neg_eq_packed {x : Float} (hx : x.isFinite) : -x = (ofFloat x).opposite.packed := by
  show Float.ofModel (.pack x.toModel.unpack.neg) = _
  rw [unpack_ofFloat hx, ← unpacked_opposite]
  rfl

theorem isFinite_neg {x : Float} (hx : x.isFinite) : (-x).isFinite := by
  rw [neg_eq_packed hx]
  exact isFinite_packed (canonical_ofFloat hx).opposite

end Binary

end DiceScript.Number
