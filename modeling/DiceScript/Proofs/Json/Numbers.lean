import DiceScript.Json.Reader
import DiceScript.Json.Writer
import DiceScript.Proofs.Number.Shortest

/-!
# Numbers read back

The text of an integer of 64 bits, signed or unsigned, and the text of a finite float are read as
that integer and that float, whatever follows them, as long as it does not go on as a number would.
A float may be written with a point, with an exponent or both; the digits and the exponent that the
reader collects stand for the same decimal in each case, and that decimal lies in the interval of the
float.

- `Stops` — what may follow a number.
- `readNumber_intText`, `readNumber_floatText` — integers and floats read back.
-/

namespace DiceScript.Json

open Number

/-- A text that does not go on as a number would. -/
def Stops (rest : List Char) : Prop :=
  ∀ c, rest.head? = some c → c.isDigit = false ∧ c ≠ '.' ∧ c ≠ 'e' ∧ c ≠ 'E'

/-! ## Digits -/

def NoDigit (rest : List Char) : Prop := ∀ c, rest.head? = some c → c.isDigit = false

theorem Stops.noDigit {rest : List Char} (h : Stops rest) : NoDigit rest := fun c hc => (h c hc).1

theorem noDigit_cons {c : Char} {rest : List Char} (h : c.isDigit = false) : NoDigit (c :: rest) := by
  intro d hd
  rw [List.head?_cons, Option.some.injEq] at hd
  rwa [← hd]

theorem spanDigits_append {ds rest : List Char} (hds : ∀ c ∈ ds, c.isDigit = true)
    (hrest : NoDigit rest) : spanDigits (ds ++ rest) = (ds, rest) := by
  have htake : rest.takeWhile Char.isDigit = [] ∧ rest.dropWhile Char.isDigit = rest := by
    cases rest with
    | nil => exact ⟨rfl, rfl⟩
    | cons c rest => simp [hrest c rfl]
  unfold spanDigits
  rw [List.takeWhile_append_of_pos hds, List.dropWhile_append_of_pos hds, htake.1, htake.2,
    List.append_nil]

theorem natOfDigits_eq (ds : List Char) : natOfDigits ds = Nat.ofDigitChars 10 ds 0 := rfl

theorem natOfDigits_natText (n : Nat) : natOfDigits (natText n) = n := by
  rw [natOfDigits_eq]
  exact Nat.ofDigitChars_ten_toDigits

theorem natOfDigits_append_zeros (ds : List Char) (k : Nat) :
    natOfDigits (ds ++ List.replicate k '0') = natOfDigits ds * 10 ^ k := by
  rw [natOfDigits_eq, Nat.ofDigitChars_append, Nat.ofDigitChars_replicate_zero, Nat.mul_comm]
  rfl

theorem natOfDigits_zeros_append (k : Nat) (ds : List Char) :
    natOfDigits (List.replicate k '0' ++ ds) = natOfDigits ds := by
  rw [natOfDigits_eq, Nat.ofDigitChars_append, Nat.ofDigitChars_replicate_zero, Nat.mul_zero]
  rfl

theorem isDigit_of_mem_natText {n : Nat} {c : Char} (h : c ∈ natText n) : c.isDigit = true :=
  Nat.isDigit_of_mem_toDigits (by decide) (by decide) h

theorem isDigit_of_mem_zeros {k : Nat} {c : Char} (h : c ∈ List.replicate k '0') :
    c.isDigit = true := by
  rw [List.eq_of_mem_replicate h]
  decide

/-- The digits of a positive number do not start with a zero. -/
theorem natText_cons {n : Nat} (hn : 0 < n) :
    ∃ c ds, natText n = c :: ds ∧ c ≠ '0' := by
  induction n using Nat.strongRecOn with
  | ind n ih =>
    unfold natText at ih ⊢
    rw [Nat.toDigits_eq_if (by decide)]
    split
    · refine ⟨_, [], rfl, ?_⟩
      interval_cases n <;> decide
    · obtain ⟨c, ds, hds, hc⟩ := ih (n / 10) (by omega) (by omega)
      rw [hds]
      exact ⟨c, ds ++ [(n % 10).digitChar], rfl, hc⟩

/-! ## Parts of a number -/

/-- The digits before a point: none but the only one is a leading zero. -/
structure Whole (ds : List Char) : Prop where
  digits : ∀ c ∈ ds, c.isDigit = true
  leading : ds = ['0'] ∨ ∃ c cs, ds = c :: cs ∧ c ≠ '0'

theorem whole_zero : Whole ['0'] := by
  refine ⟨?_, .inl rfl⟩
  intro c hc
  rw [List.mem_singleton.mp hc]
  decide

theorem whole_natText (n : Nat) : Whole (natText n) := by
  refine ⟨fun c => isDigit_of_mem_natText, ?_⟩
  rcases Nat.eq_zero_or_pos n with rfl | hn
  · exact .inl (Nat.toDigits_zero 10)
  · exact .inr (natText_cons hn)

/-- Digits after the first one do not matter. -/
theorem Whole.of_cons {c : Char} {cs : List Char} (hc : c ≠ '0')
    (h : ∀ d ∈ c :: cs, d.isDigit = true) : Whole (c :: cs) :=
  ⟨h, .inr ⟨c, cs, rfl, hc⟩⟩

theorem readFraction_point {ds rest : List Char} (hne : ds ≠ [])
    (hds : ∀ c ∈ ds, c.isDigit = true) (hrest : NoDigit rest) :
    readFraction ('.' :: (ds ++ rest)) = some (some ds, rest) := by
  simp [readFraction, spanDigits_append hds hrest, hne]

theorem readFraction_none {rest : List Char} (h : rest.head? ≠ some '.') :
    readFraction rest = some (none, rest) := by
  unfold readFraction
  split
  · exact absurd rfl h
  · rfl

theorem readExponent_none {rest : List Char} (h : Stops rest) :
    readExponent rest = some (none, rest) := by
  unfold readExponent
  split
  · exact absurd rfl (h _ rfl).2.2.1
  · exact absurd rfl (h _ rfl).2.2.2
  · rfl

def powerText (power : Int) : List Char :=
  'e' :: (if power < 0 then '-' else '+') :: natText power.natAbs

theorem noDigit_powerText (power : Int) (rest : List Char) : NoDigit (powerText power ++ rest) :=
  noDigit_cons (by decide)

theorem readFraction_powerText (power : Int) (rest : List Char) :
    readFraction (powerText power ++ rest) = some (none, powerText power ++ rest) :=
  readFraction_none (by simp [powerText])

/-- An exponent is read with its sign. -/
theorem readExponent_powerText {rest : List Char} (power : Int) (hrest : NoDigit rest) :
    readExponent (powerText power ++ rest) = some (some power, rest) := by
  have hne : (natText power.natAbs).isEmpty = false := by
    obtain ⟨c, cs, hcs⟩ := List.exists_cons_of_ne_nil (Nat.toDigits_ne_nil (n := power.natAbs) (b := 10))
    unfold natText
    rw [hcs]
    rfl
  have hspan := spanDigits_append (fun c => isDigit_of_mem_natText (n := power.natAbs) (c := c)) hrest
  unfold powerText
  by_cases h : power < 0
  · simp [readExponent, readPower, h, hspan, hne, natOfDigits_natText, abs_of_neg h]
  · simp [readExponent, readPower, h, hspan, hne, natOfDigits_natText, abs_of_nonneg (not_lt.mp h)]

/-- The digits before a point are read whole. -/
theorem readMagnitude_of_whole {negative : Bool} {whole rest : List Char} (hw : Whole whole)
    (hrest : NoDigit rest) :
    readMagnitude negative (whole ++ rest) =
      match readFraction rest with
      | none => none
      | some (fraction, rest) =>
        match readExponent rest with
        | none => none
        | some (power, rest) =>
          match fraction, power with
          | none, none => some (ofWhole negative (natOfDigits whole), rest)
          | fraction, power =>
            match floatOfDecimal? negative (natOfDigits (whole ++ fraction.getD []))
              (power.getD 0 - (fraction.getD []).length) with
            | some x => some (.float x, rest)
            | none => some (.unreadable, rest) := by
  unfold readMagnitude
  rw [spanDigits_append hw.digits hrest]
  rcases hw.leading with rfl | ⟨c, cs, rfl, hc⟩
  · rfl
  · dsimp only
    split
    · rename_i h
      cases h
    · rename_i h
      exact absurd (List.cons.inj h).1 hc
    · rfl

/-- A number without a point and an exponent. -/
theorem readMagnitude_whole {negative : Bool} {whole rest : List Char} (hw : Whole whole)
    (hrest : Stops rest) :
    readMagnitude negative (whole ++ rest) = some (ofWhole negative (natOfDigits whole), rest) := by
  have hpoint : rest.head? ≠ some '.' := fun h => (hrest _ h).2.1 rfl
  rw [readMagnitude_of_whole hw hrest.noDigit, readFraction_none hpoint]
  dsimp only
  rw [readExponent_none hrest]

/-- A text that starts with digits and is read as a float, up to a rest. -/
def ReadsAs (negative : Bool) (text : List Char) (x : Float) (rest : List Char) : Prop :=
  (∃ whole tail, Whole whole ∧ text = whole ++ tail) ∧
    readMagnitude negative text = some (.float x, rest)

/-- A number with a point and no exponent. -/
theorem readsAs_point {negative : Bool} {whole fraction rest : List Char} (hw : Whole whole)
    (hne : fraction ≠ []) (hf : ∀ c ∈ fraction, c.isDigit = true) (hrest : Stops rest) {x : Float}
    (hx : floatOfDecimal? negative (natOfDigits (whole ++ fraction)) (-fraction.length) = some x) :
    ReadsAs negative (whole ++ '.' :: (fraction ++ rest)) x rest := by
  refine ⟨⟨whole, _, hw, rfl⟩, ?_⟩
  rw [readMagnitude_of_whole hw (noDigit_cons (by decide)),
    readFraction_point hne hf hrest.noDigit]
  dsimp only
  rw [readExponent_none hrest]
  simp [hx]

/-- A number with an exponent and no point. -/
theorem readsAs_exponent {negative : Bool} {whole rest : List Char} (hw : Whole whole)
    (hrest : Stops rest) {power : Int} {x : Float}
    (hx : floatOfDecimal? negative (natOfDigits whole) power = some x) :
    ReadsAs negative (whole ++ (powerText power ++ rest)) x rest := by
  refine ⟨⟨whole, _, hw, rfl⟩, ?_⟩
  rw [readMagnitude_of_whole hw (noDigit_powerText power rest), readFraction_powerText]
  dsimp only
  rw [readExponent_powerText power hrest.noDigit]
  simp [hx]

/-- A number with a point and an exponent. -/
theorem readsAs_point_exponent {negative : Bool} {whole fraction rest : List Char}
    (hw : Whole whole) (hne : fraction ≠ []) (hf : ∀ c ∈ fraction, c.isDigit = true)
    (hrest : Stops rest) {power : Int} {x : Float}
    (hx : floatOfDecimal? negative (natOfDigits (whole ++ fraction)) (power - fraction.length) =
      some x) :
    ReadsAs negative (whole ++ '.' :: (fraction ++ (powerText power ++ rest))) x rest := by
  refine ⟨⟨whole, _, hw, rfl⟩, ?_⟩
  rw [readMagnitude_of_whole hw (noDigit_cons (by decide)),
    readFraction_point hne hf (noDigit_powerText power rest)]
  dsimp only
  rw [readExponent_powerText power hrest.noDigit]
  simp [hx]

/-! ## Integers -/

/-- The integers that 64 bits hold, with or without a sign. -/
def Integral (n : Int) : Prop := -9223372036854775808 ≤ n ∧ n < 18446744073709551616

theorem readNumber_unsigned {whole : List Char} (hw : Whole whole) (rest : List Char) :
    readNumber (whole ++ rest) = readMagnitude false (whole ++ rest) := by
  unfold readNumber
  split
  · rename_i cs h
    rcases hw.leading with rfl | ⟨c, ds, rfl, -⟩
    · cases h
    · have hminus : c = '-' := (List.cons.inj h).1
      have hdigit := hw.digits c (by simp)
      rw [hminus] at hdigit
      exact absurd hdigit (by decide)
  · rfl

theorem readNumber_intText {n : Int} (hn : Integral n) {rest : List Char} (hrest : Stops rest) :
    readNumber (intText n ++ rest) = some (.int n, rest) := by
  obtain ⟨hlow, hhigh⟩ := hn
  cases n with
  | ofNat n =>
    have hlt : n < UInt64.size := by
      show n < 18446744073709551616
      have : ((n : Nat) : Int) < 18446744073709551616 := hhigh
      omega
    show readNumber (natText n ++ rest) = _
    rw [readNumber_unsigned (whole_natText n), readMagnitude_whole (whole_natText n) hrest,
      natOfDigits_natText, ofWhole, if_neg (by decide), if_pos hlt]
    rfl
  | negSucc n =>
    have hle : (n + 1 == 0 || decide (9223372036854775808 < n + 1)) = false := by
      have : -9223372036854775808 ≤ -((n + 1 : Nat) : Int) := hlow
      simp
      omega
    show readMagnitude true (natText (n + 1) ++ rest) = _
    rw [readMagnitude_whole (whole_natText _) hrest, natOfDigits_natText, ofWhole, if_pos rfl, hle,
      if_neg (by decide)]
    rfl

/-! ## Floats -/

theorem ten_zpow_lt_iff {m n : Int} : (10 : ℚ) ^ m < 10 ^ n ↔ m < n :=
  zpow_lt_zpow_iff_right₀ (by norm_num)

theorem two_pow_le_ten_pow (n : Nat) : (2 : ℚ) ^ (3 * n) ≤ 10 ^ n := by
  rw [pow_mul]
  exact pow_le_pow_left₀ (by norm_num) (by norm_num) n

/-- The magnitudes of decimals within the range of floats. -/
theorem magnitude_bounds {d : Nat} {k : Int} (hd : 0 < d)
    (hlow : (2 : ℚ) ^ (-1075 : Int) ≤ d * 10 ^ k) (hhigh : (d : ℚ) * 10 ^ k < 2 ^ (1024 : Int)) :
    ¬ (digitCount d : Int) + k < -400 ∧ ¬ 400 < (digitCount d : Int) + k := by
  have hpow : (0 : ℚ) < 10 ^ k := by positivity
  have hcount := digitCount_pos d
  have hrange := two_pow_le_ten_pow 400
  constructor
  · have hdigits : (d : ℚ) < 10 ^ digitCount d := by exact_mod_cast lt_ten_pow_digitCount d
    have hless : (10 : ℚ) ^ (-400 : Int) < 10 ^ ((digitCount d : Int) + k) :=
      calc (10 : ℚ) ^ (-400 : Int) ≤ 2 ^ (-1200 : Int) := inv_anti₀ (by positivity) hrange
        _ ≤ 2 ^ (-1075 : Int) := zpow_le_zpow_right₀ (by norm_num) (by norm_num)
        _ ≤ d * 10 ^ k := hlow
        _ < 10 ^ digitCount d * 10 ^ k := mul_lt_mul_of_pos_right hdigits hpow
        _ = 10 ^ ((digitCount d : Int) + k) := by
          rw [zpow_add₀ (by norm_num), zpow_natCast]
    have := ten_zpow_lt_iff.mp hless
    omega
  · have hdigits : (10 : ℚ) ^ (digitCount d - 1) ≤ d := by
      exact_mod_cast ten_pow_digitCount_le hd
    have hless : (10 : ℚ) ^ ((digitCount d : Int) - 1 + k) < 10 ^ (400 : Int) :=
      calc (10 : ℚ) ^ ((digitCount d : Int) - 1 + k) = 10 ^ (digitCount d - 1) * 10 ^ k := by
            rw [zpow_add₀ (by norm_num), ← zpow_natCast, Nat.cast_sub hcount]
            rfl
        _ ≤ d * 10 ^ k := mul_le_mul_of_nonneg_right hdigits hpow.le
        _ < 2 ^ (1024 : Int) := hhigh
        _ ≤ 2 ^ (1200 : Int) := zpow_le_zpow_right₀ (by norm_num) (by norm_num)
        _ ≤ 10 ^ (400 : Int) := hrange
    have := ten_zpow_lt_iff.mp hless
    omega

/-- A decimal in the interval of a float is read as the float, with its sign. -/
theorem floatOfDecimal?_eq {x : Float} (hx : x.isFinite) {d : Nat} {k : Int} (hd : 0 < d)
    (hm : 0 < (Binary.ofFloat x).mantissa) (hv : (Binary.ofFloat x).Rounds (d * 10 ^ k)) :
    floatOfDecimal? (Binary.ofFloat x).negative d k = some x := by
  have hpacked := Binary.packed_ofFloat hx
  have hcanonical := Binary.canonical_ofFloat hx
  generalize Binary.ofFloat x = b at *
  -- The reader works on the magnitude and sets the sign in the end.
  let magnitude : Binary := { b with negative := false }
  have hmagnitude : magnitude.Canonical :=
    ⟨hcanonical.mantissa_lt, hcanonical.le_exponent, hcanonical.exponent_le, hcanonical.normal⟩
  have hread : Float.ofScientific d (k < 0) k.natAbs = magnitude.packed :=
    ofScientific_eq hmagnitude hm rfl hd ⟨hv.low_le, hv.le_high, hv.odd⟩
  have hfinite := Binary.isFinite_packed hmagnitude
  obtain ⟨hlow, hhigh⟩ := hv.magnitude hcanonical hm
  obtain ⟨hmin, hmax⟩ := magnitude_bounds hd hlow hhigh
  unfold floatOfDecimal?
  dsimp only
  rw [hread, if_neg (by simp; omega), if_neg hmax, if_pos hfinite, Option.map_some]
  congr 1
  rw [← hpacked]
  cases hsign : b.negative with
  | true =>
    rw [if_pos rfl, Binary.neg_eq_packed hfinite, Binary.ofFloat_packed hmagnitude]
    congr 1
    show Binary.mk true b.mantissa b.exponent = b
    rw [← hsign]
  | false =>
    rw [if_neg (by decide)]
    congr 1
    show Binary.mk false b.mantissa b.exponent = b
    rw [← hsign]

/-- Zero keeps its sign. -/
theorem floatOfDecimal?_zero {x : Float} (hx : x.isFinite) (hm : (Binary.ofFloat x).mantissa = 0) :
    floatOfDecimal? (Binary.ofFloat x).negative 0 (-1) = some x := by
  have hpacked := Binary.packed_ofFloat hx
  have hexponent : (Binary.ofFloat x).exponent = -1074 := by
    rcases (Binary.canonical_ofFloat hx).normal with h | h
    · omega
    · exact h
  rw [← hpacked]
  generalize hb : Binary.ofFloat x = b at *
  obtain ⟨negative, mantissa, exponent⟩ := b
  subst hm hexponent
  cases negative <;> decide +kernel

/-- The sign in front of a number is read apart from the rest. -/
theorem ReadsAs.readNumber {negative : Bool} {text rest : List Char} {x : Float}
    (h : ReadsAs negative text x rest) :
    readNumber ((if negative then ['-'] else []) ++ text) = some (.float x, rest) := by
  obtain ⟨⟨whole, tail, hw, rfl⟩, hread⟩ := h
  cases negative with
  | true => exact hread
  | false => exact (readNumber_unsigned hw tail).trans hread

section Layout

variable {negative : Bool} {d : Decimal} {x : Float} {rest : List Char}

theorem readsAs_positionalText (hd : 0 < d.digits)
    (hx : ∀ (n : Nat) (k : Int), (n : ℚ) * 10 ^ k = d.value → floatOfDecimal? negative n k = some x)
    (hrest : Stops rest) : ReadsAs negative (positionalText true d ++ rest) x rest := by
  obtain ⟨c, cs, htext, hc⟩ := natText_cons hd
  have hdigits (e : Char) (he : e ∈ natText d.digits) : e.isDigit = true := isDigit_of_mem_natText he
  have hnumber := natOfDigits_natText d.digits
  unfold positionalText
  dsimp only
  by_cases hpoint : ((natText d.digits).length : Int) + d.exponent ≤ 0
  · -- Zeros stand between the point and the digits.
    rw [if_pos hpoint]
    generalize hzeros : (-((natText d.digits).length + d.exponent)).toNat = zeros
    have hread : ReadsAs negative
        (['0'] ++ '.' :: ((List.replicate zeros '0' ++ natText d.digits) ++ rest)) x rest := by
      refine readsAs_point whole_zero (by simp [htext]) ?_ hrest (hx _ _ ?_)
      · intro e he
        rcases List.mem_append.mp he with he | he
        · exact isDigit_of_mem_zeros he
        · exact hdigits e he
      · rw [← List.append_assoc, show ['0'] = List.replicate 1 '0' from rfl, List.replicate_append_replicate,
          natOfDigits_zeros_append, hnumber]
        unfold Decimal.value
        congr 2
        rw [List.length_append, List.length_replicate]
        omega
    simpa using hread
  · rw [if_neg hpoint]
    by_cases hwhole : 0 ≤ d.exponent
    · -- Zeros stand between the digits and the point.
      rw [if_pos hwhole, if_pos rfl]
      have hw : Whole (natText d.digits ++ List.replicate d.exponent.toNat '0') := by
        rw [htext, List.cons_append]
        refine .of_cons hc fun e he => ?_
        rcases List.mem_append.mp (List.cons_append ▸ he) with he | he
        · exact hdigits e (htext ▸ he)
        · exact isDigit_of_mem_zeros he
      have hread : ReadsAs negative
          ((natText d.digits ++ List.replicate d.exponent.toNat '0') ++ '.' :: (['0'] ++ rest))
          x rest := by
        refine readsAs_point hw (by simp) whole_zero.digits hrest (hx _ _ ?_)
        rw [show ['0'] = List.replicate 1 '0' from rfl, natOfDigits_append_zeros,
          natOfDigits_append_zeros, hnumber]
        unfold Decimal.value
        have hexponent : (10 : ℚ) ^ d.exponent = 10 ^ d.exponent.toNat := by
          rw [← zpow_natCast, Int.toNat_of_nonneg hwhole]
        rw [hexponent]
        push_cast
        norm_num
        ring
      simpa using hread
    · rw [if_neg hwhole]
      -- The point stands among the digits.
      have hlength : ((natText d.digits).length + d.exponent).toNat < (natText d.digits).length := by
        omega
      generalize hplace : ((natText d.digits).length + d.exponent).toNat = place at hlength ⊢
      obtain ⟨place, rfl⟩ : ∃ k, place = k + 1 := ⟨place - 1, by omega⟩
      have hw : Whole ((natText d.digits).take (place + 1)) := by
        refine ⟨fun e he => hdigits e (List.mem_of_mem_take he), .inr ⟨c, cs.take place, ?_, hc⟩⟩
        rw [htext, List.take_succ_cons]
      have hread : ReadsAs negative ((natText d.digits).take (place + 1) ++
          '.' :: ((natText d.digits).drop (place + 1) ++ rest)) x rest := by
        refine readsAs_point hw ?_ (fun e he => hdigits e (List.mem_of_mem_drop he)) hrest
          (hx _ _ ?_)
        · rw [Ne, List.drop_eq_nil_iff]
          omega
        · rw [List.take_append_drop, hnumber]
          unfold Decimal.value
          congr 2
          rw [List.length_drop]
          omega
      simpa using hread

theorem readsAs_scientificText (hd : 0 < d.digits)
    (hx : ∀ (n : Nat) (k : Int), (n : ℚ) * 10 ^ k = d.value → floatOfDecimal? negative n k = some x)
    (hrest : Stops rest) : ReadsAs negative (scientificText d ++ rest) x rest := by
  obtain ⟨c, cs, htext, hc⟩ := natText_cons hd
  have hdigits (e : Char) (he : e ∈ c :: cs) : e.isDigit = true :=
    isDigit_of_mem_natText (htext ▸ he)
  have hnumber := natOfDigits_natText d.digits
  have hw : Whole [c] := .of_cons hc fun e he => hdigits e (by simp_all)
  rw [htext] at hnumber
  have hpower : scientificText d = [c] ++ (if (c :: cs).length > 1 then '.' :: cs else []) ++
      powerText ((c :: cs).length + d.exponent - 1) := by
    unfold scientificText
    rw [htext]
    rfl
  rw [hpower]
  cases cs with
  | nil =>
    have hread : ReadsAs negative ([c] ++ (powerText (([c].length : Int) + d.exponent - 1) ++ rest))
        x rest := by
      refine readsAs_exponent hw hrest (hx _ _ ?_)
      rw [hnumber]
      unfold Decimal.value
      congr 2
      simp
    simpa using hread
  | cons e es =>
    have hread : ReadsAs negative ([c] ++ '.' :: ((e :: es) ++
        (powerText (((c :: e :: es).length : Int) + d.exponent - 1) ++ rest))) x rest := by
      refine readsAs_point_exponent hw (by simp) (fun f hf => hdigits f (by simp_all)) hrest
        (hx _ _ ?_)
      rw [List.singleton_append, hnumber]
      unfold Decimal.value
      congr 2
      simp
      omega
    simpa using hread

end Layout

/-- A decimal that is not zero has digits. -/
theorem digits_pos_of_value {n : Nat} {k : Int} (h : 0 < (n : ℚ) * 10 ^ k) : 0 < n := by
  rw [Nat.pos_iff_ne_zero]
  rintro rfl
  simp at h

/-- **Floats read back.** What is written for a finite float is read as that float. -/
theorem readNumber_floatText {x : Float} (hx : x.isFinite) {rest : List Char} (hrest : Stops rest) :
    readNumber (floatText x ++ rest) = some (.float x, rest) := by
  unfold floatText Number.floatText
  rw [if_pos hx]
  dsimp only
  split
  · rename_i hzero
    rw [beq_iff_eq] at hzero
    have hread : ReadsAs (Binary.ofFloat x).negative (['0'] ++ '.' :: (['0'] ++ rest)) x rest :=
      readsAs_point whole_zero (by simp) whole_zero.digits hrest (floatOfDecimal?_zero hx hzero)
    rw [List.append_assoc]
    exact hread.readNumber
  · rename_i hzero
    rw [beq_iff_eq] at hzero
    have hm : 0 < (Binary.ofFloat x).mantissa := Nat.pos_of_ne_zero hzero
    have hcanonical := Binary.canonical_ofFloat hx
    have hrounds := rounds_shortest hcanonical hm numberLayout.tie
    generalize shortest numberLayout.tie (Binary.ofFloat x) = d at hrounds ⊢
    have hpos : 0 < d.value :=
      lt_of_lt_of_le (by positivity) (hrounds.magnitude hcanonical hm).1
    have hdecimal (n : Nat) (k : Int) (h : (n : ℚ) * 10 ^ k = d.value) :
        floatOfDecimal? (Binary.ofFloat x).negative n k = some x :=
      floatOfDecimal?_eq hx (digits_pos_of_value (h ▸ hpos)) hm (h ▸ hrounds)
    have hdigits : 0 < d.digits := digits_pos_of_value hpos
    rw [List.append_assoc]
    apply ReadsAs.readNumber
    split
    · exact readsAs_positionalText hdigits hdecimal hrest
    · exact readsAs_scientificText hdigits hdecimal hrest

end DiceScript.Json
