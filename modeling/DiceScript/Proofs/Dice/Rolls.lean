import DiceScript.Eval.Node
import DiceScript.Proofs.Dice.Sampling
import DiceScript.Proofs.Operator.Exactness

/-!
# Rolls

A roll asks for its faces one by one, and every face takes a step of those that are allowed. What it
makes of them depends on its form: a vector is the faces themselves, a scalar is their total, which is
added up in 64 bits. No face is negative, so a total that fits at the end has fitted all along, and one
that does not fit at some point does not fit at the end.

Both forms draw the same faces and leave the same stream. All of this is told for streams in which the
draws end; where a draw would not end, no roll comes to anything.

- `addFaces?_eq` — adding up with a check at each face is a check of the exact total.
- `run_drawFaces`, `run_drawFaces_gives_up` — the faces of a roll, and how it runs out of steps.
- `Rolls` — what a roll does, in either form.
- `rolls_exact_in_both_forms` — rolls of a program do that.
-/

namespace DiceScript

open EStateM (Result)

namespace Run

open Dice (Drawn Draws)

variable {limit : UInt64} {sides count room : ℕ} {faces drawn : List ℕ} {m : Machine} {u : Dice.Stream}

/-! ## Steps in a row -/

section Bind

variable {α β : Type} {step : Run α} {next : α → Run β} {n : Machine}

theorem bind_of_ok {a : α} (h : step m = .ok a n) : (step >>= next) m = next a n := by
  show EStateM.bind step next m = _
  rw [EStateM.bind, h]

theorem bind_of_error {cause : Cause} (h : step m = .error cause n) :
    (step >>= next) m = .error cause n := by
  show EStateM.bind step next m = _
  rw [EStateM.bind, h]

end Bind

/-! ## Totals -/

/-- A running total that is checked at each face is the exact total, checked once. -/
theorem addFaces?_eq (total : Int64) (faces : List ℕ) :
    addFaces? total faces = Number.fit? (total.toInt + (faces.sum : ℕ)) := by
  induction faces generalizing total with
  | nil => rw [addFaces?, List.sum_nil, Nat.cast_zero, add_zero, Number.fit?_toInt]
  | cons face faces ih =>
    rw [addFaces?, List.sum_cons, Nat.cast_add, ← add_assoc]
    by_cases hfits : Number.Fits (total.toInt + face)
    · rw [Number.fit?_of_fits hfits]
      dsimp only
      rw [ih, Number.toInt_ofInt hfits]
    · -- Faces are not negative, so what is above the range stays above it.
      have hover : ¬ Number.Fits (total.toInt + face + (faces.sum : ℕ)) := by
        have hlow := (Number.fits_toInt total).1
        unfold Number.Fits at hfits ⊢
        omega
      rw [Number.fit?_of_not_fits hfits, Number.fit?_of_not_fits hover]

/-! ## Faces -/

/-- One face of a roll: it is drawn, and the others come after it. -/
theorem run_drawFaces_succ {face : ℕ} (h : Drawn sides m.dice face u) :
    drawFaces limit sides (count + 1) (room + 1) drawn m =
      drawFaces limit sides count room (face :: drawn) { m with dice := u } := by
  have hstep : drawFaces limit sides (count + 1) (room + 1) drawn m =
      drawFaces limit sides count room ((Dice.draw sides m.dice).1 :: drawn)
        { m with dice := (Dice.draw sides m.dice).2 } := rfl
  rw [hstep, Dice.draw_eq h]

theorem run_drawFaces (limit : UInt64) (drawn : List ℕ) (h : Draws sides m.dice faces u)
    (hroom : faces.length ≤ room) :
    drawFaces limit sides faces.length room drawn m =
      .ok (drawn.reverse ++ faces) { m with dice := u } := by
  generalize hdice : m.dice = s at h
  induction h generalizing m room drawn with
  | none s =>
    subst hdice
    rw [List.length_nil, drawFaces, List.append_nil]
    rfl
  | more hface _ ih =>
    subst hdice
    cases room with
    | zero => exact absurd hroom (by simp)
    | succ room =>
      rw [List.length_cons, run_drawFaces_succ hface, ih _ (Nat.le_of_succ_le_succ hroom) rfl,
        List.reverse_cons, List.append_assoc, List.singleton_append]

/-- A roll of more faces than there is room for draws as many as there is room for, and then gives
up. -/
theorem run_drawFaces_gives_up (limit : UInt64) (drawn : List ℕ) (h : Draws sides m.dice faces u)
    (hcount : faces.length < count) :
    drawFaces limit sides count faces.length drawn m =
      .error (.timeout .diceRoll limit) { m with dice := u } := by
  generalize hdice : m.dice = s at h
  induction h generalizing m count drawn with
  | none s =>
    subst hdice
    obtain ⟨count, rfl⟩ := Nat.exists_eq_add_of_lt hcount
    rfl
  | more hface _ ih =>
    subst hdice
    cases count with
    | zero => exact absurd hcount (Nat.not_lt_zero _)
    | succ count =>
      rw [List.length_cons, run_drawFaces_succ hface, ih _ (Nat.lt_of_succ_lt_succ hcount) rfl]

/-! ## Both forms -/

/-- What the log is told of a roll before its total: how many dice of how many sides, and which faces. -/
def rollEntry (n k : ℤ) (faces : List ℕ) : String :=
  toString n ++ "d" ++ toString k ++ ": [" ++ ", ".intercalate (faces.map toString) ++ "]"

theorem rollTitle_eq (n k : Int64) (faces : List ℕ) :
    rollTitle n k faces = rollEntry n.toInt k.toInt faces := by
  have hbracket : (": [" : String) = ": " ++ "[" := rfl
  rw [rollTitle, facesText, rollEntry, hbracket]
  simp only [String.append_assoc]

/-- What the two forms of a roll make of its faces, in the state in which the faces have been drawn: each
appends one entry to the log and changes nothing else, or, where 64 bits do not hold the total, the
scalar form fails and has logged nothing. -/
structure BothForms (n k : ℤ) (faces : List ℕ) (m : Machine)
    (result : DieForm → Result Cause Machine Value) : Prop where
  between : ∀ face ∈ faces, 1 ≤ face ∧ (face : ℤ) ≤ k
  vector : ∃ values : List Int64, values.map Int64.toInt = faces.map Nat.cast ∧
    result .vector =
      .ok (.list (values.map .integer)) { m with log := m.log.push (rollEntry n k faces) }
  scalar : (faces.sum : ℤ) ≤ Int64.maxValue.toInt →
    ∃ total : Int64, total.toInt = faces.sum ∧ result .scalar =
      .ok (.integer total)
        { m with log := m.log.push (rollEntry n k faces ++ " = " ++ toString (faces.sum : ℤ)) }
  overflow : Int64.maxValue.toInt < faces.sum →
    ∃ cause : Cause, cause.kind = .operationError ∧ result .scalar = .error cause m

/-- What a roll of `n` dice with `k` sides does in a state, where `limit` faces may be drawn. -/
structure Rolls (limit : UInt64) (n k : ℤ) (m : Machine)
    (result : DieForm → Result Cause Machine Value) : Prop where
  refused : n < 0 ∨ k < 1 → ∀ form, ∃ cause : Cause, cause.kind = .operationError ∧
    result form = .error cause m
  givesUp : 0 ≤ n → 1 ≤ k → limit.toNat < n →
    ∀ faces u, faces.length = limit.toNat → Draws k.toNat m.dice faces u →
      ∀ form, ∃ cause : Cause, cause.kind = .diceRollTimeout ∧ cause.iterations = some limit ∧
        result form = .error cause { m with dice := u }
  draws : 0 ≤ n → 1 ≤ k → n ≤ limit.toNat →
    ∀ faces u, (faces.length : ℤ) = n → Draws k.toNat m.dice faces u →
      BothForms n k faces { m with dice := u } result

theorem bothForms_rollValue {n k : Int64} (hbetween : ∀ face ∈ faces, 1 ≤ face ∧ (face : ℤ) ≤ k.toInt) :
    BothForms n.toInt k.toInt faces m fun form => rollValue n k form faces m := by
  have htotal := addFaces?_eq 0 faces
  rw [Int64.toInt_zero, zero_add] at htotal
  refine ⟨hbetween, ⟨faces.map Int64.ofNat, ?_, ?_⟩, ?_, ?_⟩
  · rw [List.map_map, List.map_inj_left]
    intro face hface
    have hhigh := (hbetween face hface).2.trans_lt (Number.fits_toInt k).2
    exact Int64.toInt_ofNat_of_lt (by omega)
  · rw [List.map_map, ← rollTitle_eq]
    rfl
  · intro hsum
    have hfits : Number.Fits (faces.sum : ℕ) := ⟨by omega, Int.lt_of_le_sub_one hsum⟩
    obtain ⟨total, hadded, hvalue⟩ : ∃ total, addFaces? 0 faces = some total ∧
        total.toInt = faces.sum :=
      ⟨_, htotal.trans (Number.fit?_of_fits hfits), Number.toInt_ofInt hfits⟩
    refine ⟨total, hvalue, ?_⟩
    rw [rollValue, hadded, ← rollTitle_eq, ← hvalue]
    rfl
  · intro hsum
    have hover : ¬ Number.Fits (faces.sum : ℕ) := by
      rintro ⟨-, hhigh⟩
      exact absurd (Int.le_sub_one_of_lt hhigh) (not_le.mpr hsum)
    rw [Number.fit?_of_not_fits hover] at htotal
    refine ⟨.diceOverflow, rfl, ?_⟩
    rw [rollValue, htotal]
    rfl

theorem rolls_roll (limit : UInt64) (n k : Int64) (m : Machine) :
    Rolls limit n.toInt k.toInt m fun form => roll limit n k form m := by
  refine ⟨?_, ?_, ?_⟩
  · intro hrefused form
    unfold roll
    split_ifs with hcount hsides
    · exact ⟨.negativeCount n, rfl, rfl⟩
    · exact ⟨.tooFewSides k, rfl, rfl⟩
    · omega
  · intro hn hk hlimit faces u hlength hdraws form
    have hcount : faces.length < n.toInt.toNat := by omega
    have hgivesUp := run_drawFaces_gives_up limit [] hdraws hcount
    refine ⟨.timeout .diceRoll limit, rfl, rfl, ?_⟩
    rw [roll, if_neg (by omega), if_neg (by omega), ← hlength]
    exact bind_of_error hgivesUp
  · intro hn hk hlimit faces u hlength hdraws
    have hcount : n.toInt.toNat = faces.length := by omega
    have hroom : faces.length ≤ limit.toNat := by omega
    have hfaces := run_drawFaces limit [] hdraws hroom
    have hroll : ∀ form, roll limit n k form m = rollValue n k form faces { m with dice := u } := by
      intro form
      rw [roll, if_neg (by omega), if_neg (by omega), hcount]
      exact bind_of_ok hfaces
    simp only [hroll]
    apply bothForms_rollValue
    intro face hface
    have hbetween := hdraws.between (by omega) face hface
    omega

/-- **Rolls are exact, and both forms agree.** Where the parameters of a roll are the numbers `n` and
`k`, the roll is refused if `n` is negative or `k` is not positive; it gives up, telling the limit, if
`n` exceeds that; and else it draws `n` faces from 1 to `k`. The vector form yields them in order. The
scalar form draws the same ones and leaves the same stream; it yields their exact sum if 64 bits hold
it, and fails without a word in the log if they do not. Every roll that succeeds logs one entry. -/
theorem rolls_exact_in_both_forms (c : Context) (deeper : Deeper) (count : Option Node) (sides : Node)
    {m₀ m₁ m : Machine} {n k : Int64} (hcount : dieCount c deeper count m₀ = .ok n m₁)
    (hsides : dieParameter .sides sides (evaluate c deeper sides) m₁ = .ok k m) :
    Rolls c.options.limits.maxDiceDraws n.toInt k.toInt m fun form =>
      evaluate c deeper (.dice count sides form) m₀ := by
  have hrun : ∀ form, evaluate c deeper (.dice count sides form) m₀ =
      roll c.options.limits.maxDiceDraws n k form m := by
    intro form
    rw [evaluate, bind_of_ok hcount, bind_of_ok hsides]
  simp only [hrun]
  exact rolls_roll _ n k m

/-- Five dice with twenty sides from the stream of the seed 7. For the third face two words are passed
over. -/
theorem rolls_exact_in_both_forms_seeded :
    let c : Context := ⟨{}, ⟨"ann", "guild"⟩⟩
    let m := Machine.start {} (Dice.Stream.ofSeed 7)
    ∃ u, Draws 20 m.dice [1, 7, 6, 20, 4] u ∧
      BothForms 5 20 [1, 7, 6, 20, 4] { m with dice := u } fun form =>
        evaluate c none (.dice (some (.integer 5)) (.integer 20) form) m := by
  intro c m
  have hdraws : ∃ u, Draws 20 m.dice [1, 7, 6, 20, 4] u :=
    ⟨_, .more (.of_some (by decide +kernel)) <| .more (.of_some (by decide +kernel)) <|
      .more (.of_none (by decide +kernel) (.of_none (by decide +kernel) (.of_some (by decide +kernel))))
        <| .more (.of_some (by decide +kernel)) <| .more (.of_some (by decide +kernel)) <| .none _⟩
  obtain ⟨u, hu⟩ := hdraws
  have hcount : dieCount c none (some (.integer 5)) m = .ok 5 m := rfl
  have hsides : dieParameter .sides (.integer 20) (evaluate c none (.integer 20)) m = .ok 20 m := rfl
  have hrolls := rolls_exact_in_both_forms c none (some (.integer 5)) (.integer 20) hcount hsides
  exact ⟨u, hu, hrolls.draws (by decide) (by decide) (by decide) _ u rfl hu⟩

end Run

end DiceScript
