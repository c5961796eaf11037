import DiceScript.Interpreter
import DiceScript.Proofs.Eval.Invariant

/-!
# Sequences of runs

A store is shared: one interpreter after another runs a program on it, each with its own options and
dice, for anyone, and whether a run fails or not, the next one finds what it left. `Store.Reaches`
relates a store to those that such a sequence can turn it into.

- `Store.Reaches` — any number of runs of admitted programs.
- `Interpreter.execute_keeps` — one run told as an invariant of its machine.
- `Store.Reaches.keeps` — what one run keeps, a sequence keeps.
-/

namespace DiceScript

open Run (Keeps)

/-- The stores that runs of admitted programs can turn `s` into. -/
inductive Store.Reaches (admitted : Node → Prop) (s : Store) : Store → Prop where
  | refl : Reaches admitted s s
  | execute (i : Interpreter) {program : Node} (identity : Identity) :
      Reaches admitted s i.store → admitted program →
        Reaches admitted s (i.execute program identity).2.store

/-- What every single run keeps is kept by a sequence of runs. -/
theorem Store.Reaches.keeps {admitted : Node → Prop} {P : Store → Prop}
    (step : ∀ (i : Interpreter) (program : Node) (identity : Identity), admitted program →
      P i.store → P (i.execute program identity).2.store)
    {s t : Store} (h : s.Reaches admitted t) (hs : P s) : P t := by
  induction h with
  | refl => exact hs
  | execute i identity _ hp ih => exact step i _ identity hp ih

namespace Interpreter

variable {I : Machine → Prop} {V : Value → Prop}

/-- A property that the machine of a run keeps holds of a machine with the store that the run leaves,
and what the run yields is a value that the machine may yield. -/
theorem run_keeps {options : Options} {dice : Dice.Stream} {store : Store} {program : Node}
    {identity : Identity} (h : Keeps I V (Run.program ⟨options, identity⟩ program))
    (hs : I (Machine.start store dice)) :
    (∃ m, I m ∧ (run options dice store program identity).2 = m.store) ∧
      ∀ outcome, (run options dice store program identity).1 = .ok outcome → V outcome.value := by
  have hend := h _ hs
  unfold run
  cases hr : Run.program ⟨options, identity⟩ program (Machine.start store dice) with
  | ok value m =>
    rw [hr] at hend
    refine ⟨⟨m, hend.1, rfl⟩, fun outcome ho => ?_⟩
    obtain rfl := Except.ok.inj ho
    exact hend.2
  | error cause m =>
    rw [hr] at hend
    exact ⟨⟨m, hend, rfl⟩, fun outcome ho => absurd ho (by simp)⟩

/-- The same of a run of an interpreter. -/
theorem execute_keeps (i : Interpreter) {program : Node} {identity : Identity}
    (h : Keeps I V (Run.program ⟨i.options, identity⟩ program))
    (hs : I (Machine.start i.store i.dice)) :
    (∃ m, I m ∧ (i.execute program identity).2.store = m.store) ∧
      ∀ outcome, (i.execute program identity).1 = .ok outcome → V outcome.value :=
  run_keeps h hs

end Interpreter

end DiceScript
