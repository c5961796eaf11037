import DiceScript.Proofs.Operator.Exactness

/-!
# Quotient and rest go together

Floored division and its remainder are worked out apart. Each divides towards zero and puts the outcome
right by a test of its own; still they belong to one division: the quotient times the divisor and the
rest make up the dividend, and the rest is smaller than the divisor and on its side of zero.

Putting right takes a quotient less one, a rest plus the divisor and a rest that is only looked at. In
64 bits such steps may wrap around or have no result. The *watched* forms of the two operators give up
where that would happen, and they never do.

- `watchedFloorDivide`, `watchedRemainder` — the operators with all steps watched.
- `watchedFloorDivide_eq`, `watchedRemainder_eq` — watching them changes nothing.
- `quotient_and_rest_fit_together` — the two operators side by side.
-/

namespace DiceScript.Operator

variable {a b : Int64}

/-! ## Watched steps -/

/-- A quotient towards zero, put right: none where one of the steps has no result in 64 bits. -/
def watchedQuotient? (a b quotient : Int64) : Option Int64 :=
  match Number.rest? a b with
  | none => none
  | some rest =>
    if rest != 0 && (a < 0) != (b < 0) then Number.fit? (quotient.toInt - 1) else some quotient

/-- A rest of division towards zero, put right: none where 64 bits do not hold the sum. -/
def watchedRest? (b rest : Int64) : Option Int64 :=
  if rest != 0 && (rest < 0) != (b < 0) then Number.fit? (rest.toInt + b.toInt) else some rest

/-- Floored division with all steps watched, none where one of them goes wrong unseen. -/
def watchedFloorDivide (a b : Int64) : Option (Except Cause Value) :=
  if b = 0 then some (.error .divisionByZero)
  else
    match Number.quotient? a b with
    | none => some (.error (.overflow .floorDiv))
    | some quotient => (watchedQuotient? a b quotient).map fun q => .ok (.integer q)

def watchedRemainder (a b : Int64) : Option (Except Cause Value) :=
  if b = 0 then some (.error .divisionByZero)
  else
    match Number.rest? a b with
    | none => some (.error (.overflow .rem))
    | some rest => (watchedRest? b rest).map fun r => .ok (.integer r)

theorem rest?_of_quotient? {q : Int64} (h : Number.quotient? a b = some q) :
    Number.rest? a b = some (a % b) := by
  rw [Number.rest?, h, Option.map_some]

theorem watchedQuotient?_eq (hb : b.toInt ≠ 0) {q : Int64} (hq : Number.quotient? a b = some q)
    (hvalue : q.toInt = a.toInt.tdiv b.toInt) :
    watchedQuotient? a b q = some (flooredQuotient a b q) := by
  have hexact := toInt_flooredQuotient hb hvalue
  have htest := corrects_iff (a % b) a b
  rw [Int64.toInt_mod] at htest
  rw [Number.floor_div _ hb, Number.fdiv_eq_corrected _ hb] at hexact
  unfold watchedQuotient?
  unfold flooredQuotient at hexact ⊢
  rw [rest?_of_quotient? hq]
  dsimp only
  split_ifs with h
  · -- The quotient that was put right is one less, so one less fits.
    rw [if_pos h, if_pos (htest.mp h), ← hvalue] at hexact
    rw [← hexact, Number.fit?_toInt]
  · rfl

theorem watchedRest?_eq (hb : b.toInt ≠ 0) {r : Int64} (hvalue : r.toInt = a.toInt.tmod b.toInt) :
    watchedRest? b r = some (flooredRest b r) := by
  have hexact := toInt_flooredRest hb hvalue
  have htest := corrects_iff r r b
  rw [hvalue] at htest
  rw [Number.floor_div _ hb, ← Int.fmod_def, Number.fmod_eq_corrected _ hb] at hexact
  unfold watchedRest?
  unfold flooredRest at hexact ⊢
  split_ifs with h
  · rw [if_pos h, if_pos (htest.mp h), ← hvalue] at hexact
    rw [← hexact, Number.fit?_toInt]
  · rfl

theorem watchedFloorDivide_eq (a b : Int64) :
    watchedFloorDivide a b = some (floorDivide (.integer a) (.integer b)) := by
  unfold watchedFloorDivide floorDivide
  dsimp only
  by_cases hb : b = 0
  · rw [if_pos hb, if_pos hb]
  · have hzero : b.toInt ≠ 0 := fun h => hb (Int64.toInt_inj.mp h)
    rw [if_neg hb, if_neg hb]
    rcases Number.quotient?_cases (a := a) hb with ⟨q, hq, hvalue⟩ | ⟨hnone, -⟩
    · rw [hq]
      dsimp only
      rw [watchedQuotient?_eq hzero hq hvalue, Option.map_some]
    · rw [hnone]

theorem watchedRemainder_eq (a b : Int64) :
    watchedRemainder a b = some (remainder (.integer a) (.integer b)) := by
  unfold watchedRemainder remainder
  dsimp only
  by_cases hb : b = 0
  · rw [if_pos hb, if_pos hb]
  · have hzero : b.toInt ≠ 0 := fun h => hb (Int64.toInt_inj.mp h)
    rw [if_neg hb, if_neg hb]
    rcases Number.quotient?_cases (a := a) hb with ⟨q, hq, -⟩ | ⟨hnone, -⟩
    · rw [rest?_of_quotient? hq]
      dsimp only
      rw [watchedRest?_eq hzero (Int64.toInt_mod a b), Option.map_some]
    · rw [Number.rest?, hnone, Option.map_none]

/-! ## Both together -/

/-- Whether floored division has no quotient in 64 bits. -/
def Undivided (a b : Int64) : Prop := b = 0 ∨ a = Int64.minValue ∧ b = -1

/-- Quotient and rest of one floored division. -/
structure Division (a b q r : Int64) : Prop where
  floor : q.toInt = ⌊(a.toInt : ℚ) / b.toInt⌋
  whole : a.toInt = q.toInt * b.toInt + r.toInt
  smaller : |r.toInt| < |b.toInt|
  side : r.toInt = 0 ∨ r.toInt.sign = b.toInt.sign

/-- The exact quotient, rounded down, and what it leaves are quotient and rest of one division. -/
theorem division_of_exact {q r : Int64} (hb : b.toInt ≠ 0)
    (hq : q.toInt = ⌊(a.toInt : ℚ) / b.toInt⌋)
    (hr : r.toInt = a.toInt - b.toInt * ⌊(a.toInt : ℚ) / b.toInt⌋) : Division a b q r := by
  have hbetween := Number.fmod_between a.toInt hb
  rw [Int.fmod_def, ← Number.floor_div _ hb, ← hr] at hbetween
  refine ⟨hq, ?_, ?_, ?_⟩
  · rw [hr, hq]
    ring
  · rcases hbetween with ⟨hlow, hhigh⟩ | ⟨hlow, hhigh⟩
    · rwa [abs_of_nonneg hlow, abs_of_nonneg (hlow.trans hhigh.le)]
    · rw [abs_of_nonpos hhigh, abs_of_nonpos (hlow.le.trans hhigh)]
      omega
  · rcases hbetween with ⟨hlow, hhigh⟩ | ⟨hlow, hhigh⟩
    · rcases hlow.eq_or_lt with hzero | hpos
      · exact .inl hzero.symm
      · right
        rw [Int.sign_eq_one_of_pos hpos, Int.sign_eq_one_of_pos (hpos.trans hhigh)]
    · rcases hhigh.eq_or_lt with hzero | hneg
      · exact .inl hzero
      · right
        rw [Int.sign_eq_neg_one_of_neg hneg, Int.sign_eq_neg_one_of_neg (hlow.trans hneg)]

theorem floorDivide_of_undivided (h : Undivided a b) :
    ∃ cause, floorDivide (.integer a) (.integer b) = .error cause := by
  rcases h with rfl | ⟨rfl, rfl⟩
  · exact ⟨.divisionByZero, rfl⟩
  · exact ⟨.overflow .floorDiv, rfl⟩

theorem exists_division (h : ¬ Undivided a b) :
    ∃ q r : Int64, floorDivide (.integer a) (.integer b) = .ok (.integer q) ∧
      remainder (.integer a) (.integer b) = .ok (.integer r) ∧ Division a b q r := by
  rw [Undivided, not_or] at h
  obtain ⟨hb, hpair⟩ := h
  have hzero : b.toInt ≠ 0 := fun h => hb (Int64.toInt_inj.mp h)
  rcases Number.quotient?_cases (a := a) hb with ⟨q, hq, hvalue⟩ | ⟨-, hleast⟩
  · refine ⟨flooredQuotient a b q, flooredRest b (a % b), ?_, ?_, ?_⟩
    · unfold floorDivide
      dsimp only
      rw [if_neg hb, hq]
    · unfold remainder
      dsimp only
      rw [if_neg hb, rest?_of_quotient? hq]
    · exact division_of_exact hzero (toInt_flooredQuotient hzero hvalue)
        (toInt_flooredRest hzero (Int64.toInt_mod a b))
  · exact absurd hleast hpair

/-- **Quotient and rest fit together.** Floored division fails for a divisor of zero and for the least
integer by -1, and for no other pair. For every other pair the remainder does not fail, either, and the
two are quotient and rest of one division. No step on the way to either leaves 64 bits. -/
theorem quotient_and_rest_fit_together (limits : Limits) (a b : Int64) :
    ((∃ cause, binary limits .floorDiv (.integer a) (.integer b) = .error cause) ↔ Undivided a b) ∧
    (¬ Undivided a b → ∃ q r : Int64,
      binary limits .floorDiv (.integer a) (.integer b) = .ok (.integer q) ∧
      binary limits .rem (.integer a) (.integer b) = .ok (.integer r) ∧ Division a b q r) ∧
    watchedFloorDivide a b = some (binary limits .floorDiv (.integer a) (.integer b)) ∧
    watchedRemainder a b = some (binary limits .rem (.integer a) (.integer b)) := by
  refine ⟨⟨?_, ?_⟩, exists_division, watchedFloorDivide_eq a b, watchedRemainder_eq a b⟩
  · rintro ⟨cause, hfails⟩
    by_contra hdivided
    obtain ⟨q, r, hq, -⟩ := exists_division hdivided
    have hboth : Except.error cause = .ok (Value.integer q) := hfails.symm.trans hq
    cases hboth
  · exact floorDivide_of_undivided

/-- The least integer by three: both operators have to put their outcome right. -/
theorem quotient_and_rest_fit_together_least :
    ¬ Undivided Int64.minValue 3 ∧ ∃ q r : Int64,
      binary {} .floorDiv (.integer Int64.minValue) (.integer 3) = .ok (.integer q) ∧
      binary {} .rem (.integer Int64.minValue) (.integer 3) = .ok (.integer r) ∧
      Division Int64.minValue 3 q r := by
  have hdivided : ¬ Undivided Int64.minValue 3 := by
    unfold Undivided
    decide
  exact ⟨hdivided, (quotient_and_rest_fit_together {} Int64.minValue 3).2.1 hdivided⟩

end DiceScript.Operator
