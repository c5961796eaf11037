import DiceScript.Dice.Stream
import Mathlib.Tactic

/-!
# Which faces are drawn

Drawing passes over words until one decides. As a relation between a stream, a face and what is left of
the stream, this needs no word about streams in which none does. Whatever word decides, its product
with the sides has an upper half below the sides, so the face is one of the die's.

- `Drawn`, `Draws` — one face, and several in a row.
- `draw_eq` — what the relation says is what is drawn.
- `Drawn.between` — faces lie between 1 and the sides.
-/

namespace DiceScript.Dice

variable {sides face : ℕ} {s u : Stream}

/-- A face is drawn from a stream: a word decides if the lower half of its product with the sides does not
exceed the zone, and then the upper half is the face, less one; if it does, the word is passed over. -/
inductive Drawn (sides : ℕ) : Stream → ℕ → Stream → Prop where
  | decided {s : Stream} (h : s.next.1.toNat * sides % UInt64.size ≤ zone sides) :
    Drawn sides s (1 + s.next.1.toNat * sides / UInt64.size) s.next.2
  | passed {s u : Stream} {face : ℕ} (h : zone sides < s.next.1.toNat * sides % UInt64.size)
    (hrest : Drawn sides s.next.2 face u) : Drawn sides s face u

inductive Draws (sides : ℕ) : Stream → List ℕ → Stream → Prop where
  | none (s : Stream) : Draws sides s [] s
  | more {s u v : Stream} {face : ℕ} {faces : List ℕ} (h : Drawn sides s face u)
    (hrest : Draws sides u faces v) : Draws sides s (face :: faces) v

/-! ## One face -/

theorem faceOf?_of_le {w : UInt64} (h : w.toNat * sides % UInt64.size ≤ zone sides) :
    faceOf? sides w = some (1 + w.toNat * sides / UInt64.size) := if_pos h

theorem faceOf?_of_lt {w : UInt64} (h : zone sides < w.toNat * sides % UInt64.size) :
    faceOf? sides w = none := if_neg (not_le.mpr h)

theorem Drawn.of_some (h : faceOf? sides s.next.1 = some face) : Drawn sides s face s.next.2 := by
  rcases le_or_gt (s.next.1.toNat * sides % UInt64.size) (zone sides) with hdecides | hpasses
  · rw [faceOf?_of_le hdecides] at h
    obtain rfl := Option.some.inj h
    exact .decided hdecides
  · rw [faceOf?_of_lt hpasses] at h
    cases h

theorem Drawn.of_none (h : faceOf? sides s.next.1 = none) (hrest : Drawn sides s.next.2 face u) :
    Drawn sides s face u := by
  refine .passed ?_ hrest
  by_contra hdecides
  rw [faceOf?_of_le (not_lt.mp hdecides)] at h
  cases h

/-- A search that has passed over some words finds the face that is drawn from the rest, and the words
that it passes over lead to the word that decides. -/
theorem repeatM_look_eq (h : Drawn sides s face u) :
    ∃ passed, (s.skip passed).next.2 = u ∧
      ∀ before, repeatM (fun seen => (pure (look sides seen) : Id _)) (s, before) =
        pure (face, before + passed) := by
  induction h with
  | decided hdecides =>
    refine ⟨0, rfl, fun before => ?_⟩
    rw [repeatM_eq_of_monadTail, repeatM.body, look]
    dsimp only
    rw [faceOf?_of_le hdecides]
    rfl
  | passed hpasses _ ih =>
    obtain ⟨passed, hu, hsearch⟩ := ih
    refine ⟨passed + 1, hu, fun before => ?_⟩
    rw [repeatM_eq_of_monadTail, repeatM.body, look]
    dsimp only
    rw [faceOf?_of_lt hpasses, pure_bind]
    dsimp only
    rw [hsearch, add_assoc, add_comm 1]

theorem drawFrom_eq (tries : ℕ) (h : Drawn sides s face u) : drawFrom sides tries s = (face, u) := by
  induction tries generalizing s with
  | zero =>
    obtain ⟨passed, hu, hsearch⟩ := repeatM_look_eq h
    have hfound : search sides s = (face, passed) := by
      rw [search, hsearch, zero_add]
      rfl
    rw [drawFrom, hfound, ← hu]
  | succ tries ih =>
    unfold drawFrom
    dsimp only
    cases h with
    | decided hdecides => rw [faceOf?_of_le hdecides]
    | passed hpasses hrest =>
      rw [faceOf?_of_lt hpasses]
      exact ih hrest

theorem draw_eq (h : Drawn sides s face u) : draw sides s = (face, u) := drawFrom_eq patience h

/-- A face lies between 1 and the sides, whichever word decides. -/
theorem Drawn.between (h : Drawn sides s face u) (hsides : 1 ≤ sides) : 1 ≤ face ∧ face ≤ sides := by
  induction h with
  | @decided s _ =>
    have hword := s.next.1.toNat_lt_size
    have hupper : s.next.1.toNat * sides / UInt64.size < sides := by
      rw [Nat.div_lt_iff_lt_mul (by decide), mul_comm sides]
      exact Nat.mul_lt_mul_of_pos_right hword hsides
    exact ⟨Nat.le_add_right _ _, by rwa [add_comm, Nat.succ_le_iff]⟩
  | passed _ _ ih => exact ih

/-! ## Several faces -/

theorem Draws.between {faces : List ℕ} (h : Draws sides s faces u) (hsides : 1 ≤ sides) :
    ∀ face ∈ faces, 1 ≤ face ∧ face ≤ sides := by
  induction h with
  | none s => simp
  | more hfirst _ ih =>
    rw [List.forall_mem_cons]
    exact ⟨hfirst.between hsides, ih⟩

end DiceScript.Dice
