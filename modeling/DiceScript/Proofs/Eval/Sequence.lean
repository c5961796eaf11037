import DiceScript.Proofs.Eval.Grouping
import DiceScript.Proofs.Eval.Lockstep
import DiceScript.Proofs.Recursion.Scope

/-!
# Effects in sequence

Nothing that runs looks at the log: it is only added to. So a run that finds entries in the log leaves
them in front of what it would have logged by itself, and does all else as it would have done, however
it ends. And statements follow one another: what the first ones leave is what the next ones find, and
after a failure none follows, so that what was written, bound and logged before it stays.

- `Machine.behind`, `Run.behind` — entries in front of a log.
- `behind_indistinct` — no step sees through them.
- `block_append_eq` — statements after statements.
- `effects_kept_in_sequence` — both, for every node and every list of statements.
-/

namespace DiceScript

open EStateM (Result)
open Recursion (deeperAt)

def Machine.behind (entries : Array String) (m : Machine) : Machine :=
  { m with log := entries ++ m.log }

/-- What a run answers with: the actions of its outcome, or those that come with its failure. -/
def Interpreter.actions : Except Failure Outcome → List String
  | .ok o => o.actions
  | .error f => f.actions

namespace Run

/-! ## The log is only added to -/

section Log

variable {α : Type} {entries : Array String}

/-- A result with entries in front of the log that it leaves. -/
def behind (entries : Array String) : Result Cause Machine α → Result Cause Machine α
  | .ok a m => .ok a (m.behind entries)
  | .error cause m => .error cause (m.behind entries)

@[simp] theorem left_behind (r : Result Cause Machine α) :
    left (behind entries r) = (left r).behind entries := by
  cases r <;> rfl

/-- Entries in front of the log cannot be seen. -/
theorem behind_indistinct (entries : Array String) (c : Context) :
    Indistinct c fun m n => n = m.behind entries where
  frames h := by rw [h]; rfl
  tier tier name h := by rw [h]; rfl
  iterations h := by rw [h]; rfl
  dice h := by rw [h]; rfl
  record action h := by
    rw [h]
    simp [Machine.record, Machine.behind]
  count h := by rw [h]; rfl
  draw dice h := by rw [h]; rfl
  bind name v h := by rw [h]; rfl
  unbind name h := by rw [h]; rfl
  push frame h := by rw [h]; rfl
  pop {m n} h := by
    obtain ⟨store, frame, outer, log, iterations, dice⟩ := m
    rw [h]
    cases outer <;> rfl
  put h hs ht := by
    subst h
    obtain rfl := Except.ok.inj (hs.symm.trans ht)
    rfl
  drop h hs ht := by
    subst h
    obtain ⟨rfl, rfl⟩ := Prod.mk.inj (Except.ok.inj (hs.symm.trans ht))
    rfl

/-- A step that does not see the entries carries them along. -/
theorem Lockstep.run_behind {step : Run α} (h : Lockstep (fun m n => n = m.behind entries) step)
    (m : Machine) : step (m.behind entries) = behind entries (step m) := by
  have hmatch := h m (m.behind entries) rfl
  generalize step m = r, step (m.behind entries) = r' at hmatch ⊢
  cases r with
  | ok a n =>
    cases r' with
    | ok b n' =>
      obtain ⟨rfl, rfl⟩ := hmatch
      rfl
    | error cause n' => exact hmatch.elim
  | error cause n =>
    cases r' with
    | ok b n' => exact hmatch.elim
    | error cause' n' =>
      obtain ⟨rfl, rfl⟩ := hmatch
      rfl

/-- The log that a step finds is in front of what the step logs when it finds none. -/
theorem Lockstep.run_eq_behind {step : Run α} {m : Machine}
    (h : Lockstep (fun m' n => n = m'.behind m.log) step) :
    step m = behind m.log (step { m with log := #[] }) := by
  rw [← h.run_behind]
  simp [Machine.behind]

end Log

/-! ## Statements after statements -/

section Statements

variable (c : Context) (deeper : Deeper)

/-- Statements run after others, from the state that those left, and only if those did not fail. -/
theorem block_append_eq (first second : List Node) (m : Machine) :
    block c deeper .undefined (first ++ second) m =
      match block c deeper .undefined first m with
      | .ok v n => if second = [] then .ok v n else block c deeper .undefined second n
      | .error cause n => .error cause n := by
  rw [block_append]
  show EStateM.bind _ _ m = _
  unfold EStateM.bind
  cases block c deeper .undefined first m with
  | error cause n => rfl
  | ok v n =>
    cases second with
    | nil => exact (if_pos rfl).symm
    | cons node rest =>
      have hcons := congrFun (block_cons_last c deeper v .undefined node rest) n
      exact hcons.trans (if_neg (List.cons_ne_nil node rest)).symm

variable {c deeper}

/-- A statement that fails is the last one to run. -/
theorem block_of_error {before : List Node} {node : Node} {m n k : Machine} {v : Value}
    {cause : Cause} (hbefore : block c deeper .undefined before m = .ok v n)
    (hnode : evaluate c deeper node n = .error cause k) (after : List Node) :
    block c deeper .undefined (before ++ node :: after) m = .error cause k := by
  rw [block_append_eq, hbefore]
  dsimp only
  rw [if_neg (List.cons_ne_nil node after), block]
  show EStateM.bind _ _ n = _
  unfold EStateM.bind
  rw [hnode]

end Statements

end Run

/-- **Effects are kept in sequence.** In any context, at any depth of calls and from any state:
- a node, and likewise statements, end as they do when the log is empty, with the entries that were in
  the log in front; the actions of a run are what it adds to whatever log it finds;
- statements after others run from the state that those leave, if those do not fail, and the value is
  that of the last statement;
- when a statement fails, the state is the one in which it failed, after all that was done before it,
  and the statements after it do nothing. -/
theorem effects_kept_in_sequence (c : Context) (depth : Nat) :
    let run := Run.evaluate c (deeperAt c depth)
    let steps := Run.block c (deeperAt c depth) .undefined
    (∀ node m, run node m = Run.behind m.log (run node { m with log := #[] })) ∧
    (∀ nodes m, steps nodes m = Run.behind m.log (steps nodes { m with log := #[] })) ∧
    (∀ (i : Interpreter) (program : Node) (identity : Identity) (entries : Array String),
      let started := { Machine.start i.store i.dice with log := entries }
      (Run.left (Run.program ⟨i.options, identity⟩ program started)).log.toList =
        entries.toList ++ Interpreter.actions (i.execute program identity).1) ∧
    (∀ first second m, steps (first ++ second) m =
      match steps first m with
      | .ok v n => if second = [] then .ok v n else steps second n
      | .error cause n => .error cause n) ∧
    ∀ before node after m n k v cause, steps before m = .ok v n → run node n = .error cause k →
      steps (before ++ node :: after) m = .error cause k ∧ ∃ added, k.log = n.log ++ added := by
  intro run steps
  have hevaluate : ∀ node m, run node m = Run.behind m.log (run node { m with log := #[] }) := by
    intro node m
    have hlog := Run.behind_indistinct m.log c
    exact (hlog.lockstep_evaluate (hlog.lockstep_deeper _) node).run_eq_behind
  refine ⟨hevaluate, ?_, ?_, ?_, ?_⟩
  · intro nodes m
    have hlog := Run.behind_indistinct m.log c
    exact (hlog.lockstep_block (hlog.lockstep_deeper _) nodes .undefined).run_eq_behind
  · intro i program identity entries started
    have hlog := Run.behind_indistinct entries ⟨i.options, identity⟩
    have hrun := (hlog.lockstep_program program).run_behind (Machine.start i.store i.dice)
    have hstarted : (Machine.start i.store i.dice).behind entries = started := by
      simp [Machine.behind, Machine.start, started]
    rw [← hstarted, hrun, Run.left_behind]
    unfold Interpreter.execute Interpreter.run
    cases Run.program ⟨i.options, identity⟩ program (Machine.start i.store i.dice) <;>
      simp [Machine.behind, Interpreter.actions, Cause.failure]
  · exact Run.block_append_eq c _
  · intro before node after m n k v cause hbefore hnode
    refine ⟨Run.block_of_error hbefore hnode after, (Run.left (run node { n with log := #[] })).log, ?_⟩
    have hleft := congrArg Run.left (hevaluate node n)
    rw [hnode, Run.left_behind] at hleft
    exact congrArg Machine.log hleft

/-- A name is written and printed, then a number is printed and divided by zero: what was logged and
written stays, and the last statement is not run. -/
theorem effects_kept_in_sequence_division :
    let c : Context := ⟨{}, ⟨"ann", "guild"⟩⟩
    let steps := Run.block c (deeperAt c 0) .undefined
    let before : List Node := [.qualifiedAssign .global "x" (.integer 1), .print (.identifier "x")]
    let failing : Node := .binary .floorDiv (.print (.integer 2)) (.integer 0)
    let after : List Node := [.delete (some .global) "x"]
    ∃ k added, steps (before ++ failing :: after) (Machine.start {} (.ofSeed 0)) =
        .error .divisionByZero k ∧
      k.log = #["1"] ++ added ∧ added = #["2"] ∧ k.store.keys .global = ["x"] := by
  intro c steps before failing after
  obtain ⟨-, -, -, -, hfails⟩ := effects_kept_in_sequence c 0
  obtain ⟨hsteps, added, hlog⟩ :=
    hfails before failing after (Machine.start {} (.ofSeed 0)) _ _ _ _ rfl rfl
  refine ⟨_, added, hsteps, hlog, ?_, rfl⟩
  have hadded : #["1"] ++ #["2"] = #["1"] ++ added := hlog
  exact ((Array.append_right_inj _).mp hadded).symm

end DiceScript
