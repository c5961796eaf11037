import DiceScript.Proofs.Recursion.Shape
import DiceScript.Proofs.Recursion.Termination

/-!
# The stores that a run passes through

How a plan ends says nothing about what its store was on the way. Only steps change a store, those of
the plan and those of the calls in it, so the stores after these steps, in order, are all that the
store ever was after the start: the *history* of the plan. Every plan that ends has exactly one.

A run that fails fails in some step, which may be far down in calls. `ComesTo` says that a plan comes to
a step in a state, and what it has passed through until then.

- `History` — the stores on the way to a result; `History.unique`, `Ends.exists_history`.
- `ComesTo` — a plan comes to a step.
- `History.exists_comesTo` — a plan that fails has come to a step that did.
- `Passes` — the stores that programs in turn pass through.
-/

namespace DiceScript.Recursion

variable {c : Context} {α β : Type}

@[simp] theorem enter_store (m : Machine) (frame : Option Bindings) :
    (enter m frame).store = m.store := by
  cases frame <;> rfl

@[simp] theorem leave_store (m : Machine) (frame : Option Bindings) :
    (leave m frame).store = m.store := by
  cases frame with
  | none => rfl
  | some frame =>
    show m.pop.store = m.store
    unfold Machine.pop
    split <;> rfl

theorem getLastD_append (l l' : List Store) (s : Store) :
    (l ++ l').getLastD s = l'.getLastD (l.getLastD s) := by
  induction l generalizing s with
  | nil => rfl
  | cons t rest ih => rw [List.cons_append, List.getLastD_cons, List.getLastD_cons, ih]

/-! ## Histories -/

/-- The stores after each step of a plan on its way to a result, those of its calls included. -/
inductive History (c : Context) :
    {α : Type} → Plan α → Machine → EStateM.Result Cause Machine α → List Store → Prop where
  | done {α : Type} (a : α) (m : Machine) : History c (.done a) m (.ok a m) []
  | act {α β : Type} {step : Run β} {next : β → Plan α} {m m' : Machine} {b : β}
      {r : EStateM.Result Cause Machine α} {stores : List Store} :
      step m = .ok b m' → History c (next b) m' r stores →
        History c (.act step next) m r (m'.store :: stores)
  | actFails {α β : Type} {step : Run β} {next : β → Plan α} {m m' : Machine} {cause : Cause} :
      step m = .error cause m' → History c (.act step next) m (.error cause m') [m'.store]
  | call {α : Type} {depth : Nat} {frame : Option Bindings} {task : Task} {next : Value → Plan α}
      {m m' : Machine} {v : Value} {r : EStateM.Result Cause Machine α} {inner stores : List Store} :
      History c (plan c depth task) (enter m frame) (.ok v m') inner →
        History c (next v) (leave m' frame) r stores →
          History c (.call depth frame task next) m r (inner ++ stores)
  | callFails {α : Type} {depth : Nat} {frame : Option Bindings} {task : Task}
      {next : Value → Plan α} {m m' : Machine} {cause : Cause} {inner : List Store} :
      History c (plan c depth task) (enter m frame) (.error cause m') inner →
        History c (.call depth frame task next) m (.error cause (leave m' frame)) inner

theorem Ends.exists_history {p : Plan α} {m : Machine} {r : EStateM.Result Cause Machine α}
    (h : Ends c p m r) : ∃ stores, History c p m r stores := by
  induction h with
  | done a m => exact ⟨_, .done a m⟩
  | act hstep _ ih =>
    obtain ⟨stores, hnext⟩ := ih
    exact ⟨_, .act hstep hnext⟩
  | actFails hstep => exact ⟨_, .actFails hstep⟩
  | call _ _ ihcall ihnext =>
    obtain ⟨inner, hcall⟩ := ihcall
    obtain ⟨stores, hnext⟩ := ihnext
    exact ⟨_, .call hcall hnext⟩
  | callFails _ ihcall =>
    obtain ⟨inner, hcall⟩ := ihcall
    exact ⟨_, .callFails hcall⟩

namespace History

variable {p : Plan α} {m : Machine} {r r' : EStateM.Result Cause Machine α}
  {stores stores' : List Store}

theorem ends (h : History c p m r stores) : Ends c p m r := by
  induction h with
  | done a m => exact .done a m
  | act hstep _ ih => exact .act hstep ih
  | actFails hstep => exact .actFails hstep
  | call _ _ ihcall ihnext => exact .call ihcall ihnext
  | callFails _ ihcall => exact .callFails ihcall

/-- A plan has one history at most. -/
theorem unique (h : History c p m r stores) (h' : History c p m r' stores') :
    r = r' ∧ stores = stores' := by
  refine ⟨h.ends.unique h'.ends, ?_⟩
  induction h generalizing stores' with
  | done a m =>
    cases h'
    rfl
  | act hstep _ ih =>
    cases h' with
    | act hstep' hnext =>
      obtain ⟨rfl, rfl⟩ := EStateM.Result.ok.inj (hstep.symm.trans hstep')
      rw [ih hnext]
    | actFails hstep' => cases hstep.symm.trans hstep'
  | actFails hstep =>
    cases h' with
    | act hstep' _ => cases hstep.symm.trans hstep'
    | actFails hstep' =>
      obtain ⟨rfl, rfl⟩ := EStateM.Result.error.inj (hstep.symm.trans hstep')
      rfl
  | call hcall _ ihcall ihnext =>
    cases h' with
    | call hcall' hnext =>
      obtain ⟨rfl, rfl⟩ := EStateM.Result.ok.inj (hcall.ends.unique hcall'.ends)
      rw [ihcall hcall', ihnext hnext]
    | callFails hcall' => cases hcall.ends.unique hcall'.ends
  | callFails hcall ihcall =>
    cases h' with
    | call hcall' _ => cases hcall.ends.unique hcall'.ends
    | callFails hcall' => exact ihcall hcall'

/-- The last store of a history is the one that the plan leaves. -/
theorem left_store (h : History c p m r stores) :
    (Run.left r).store = stores.getLastD m.store := by
  induction h with
  | done a m => rfl
  | act _ _ ih => rw [ih, List.getLastD_cons]
  | actFails _ => rfl
  | call _ _ ihcall ihnext =>
    rw [ihnext, leave_store, getLastD_append]
    rw [Run.left_ok, enter_store] at ihcall
    rw [ihcall]
  | callFails _ ihcall =>
    rw [Run.left_error, enter_store] at ihcall
    rw [Run.left_error, leave_store, ihcall]

end History

/-! ## Coming to a step -/

/-- A plan comes to take a step in the state `n`, after it has passed through some stores. The step
may be one of a call in it, at any depth. -/
inductive ComesTo (c : Context) {β : Type} (step : Run β) (n : Machine) :
    {α : Type} → Plan α → Machine → List Store → Prop where
  | here {α : Type} {next : β → Plan α} : ComesTo c step n (.act step next) n []
  | afterAct {α γ : Type} {first : Run γ} {next : γ → Plan α} {m m' : Machine} {b : γ}
      {stores : List Store} :
      first m = .ok b m' → ComesTo c step n (next b) m' stores →
        ComesTo c step n (.act first next) m (m'.store :: stores)
  | inCall {α : Type} {depth : Nat} {frame : Option Bindings} {task : Task} {next : Value → Plan α}
      {m : Machine} {stores : List Store} :
      ComesTo c step n (plan c depth task) (enter m frame) stores →
        ComesTo c step n (.call depth frame task next) m stores
  | afterCall {α : Type} {depth : Nat} {frame : Option Bindings} {task : Task}
      {next : Value → Plan α} {m m' : Machine} {v : Value} {inner stores : List Store} :
      History c (plan c depth task) (enter m frame) (.ok v m') inner →
        ComesTo c step n (next v) (leave m' frame) stores →
          ComesTo c step n (.call depth frame task next) m (inner ++ stores)

namespace ComesTo

variable {step : Run β} {n : Machine} {p : Plan α} {m : Machine} {stores : List Store}

/-- The state in which a step is taken has the store that was passed through last. -/
theorem store (h : ComesTo c step n p m stores) : n.store = stores.getLastD m.store := by
  induction h with
  | here => rfl
  | afterAct _ _ ih => rw [ih, List.getLastD_cons]
  | inCall _ ih => rw [ih, enter_store]
  | afterCall hcall _ ih =>
    have hlast := hcall.left_store
    rw [Run.left_ok, enter_store] at hlast
    rw [ih, leave_store, getLastD_append, hlast]

end ComesTo

/-- A plan that fails has come to a step that failed, with the same cause, and nothing was done
after it. -/
theorem History.exists_comesTo {p : Plan α} {m m' : Machine} {cause : Cause} {stores : List Store}
    (h : History c p m (.error cause m') stores) :
    ∃ (β : Type) (step : Run β) (n n' : Machine) (before : List Store),
      ComesTo c step n p m before ∧ step n = .error cause n' ∧ stores = before ++ [n'.store] := by
  generalize hr : EStateM.Result.error cause m' = r at h
  induction h generalizing m' with
  | done a m => cases hr
  | act hfirst _ ih =>
    obtain ⟨β, step, n, n', before, hcomes, hstep, rfl⟩ := ih hr
    exact ⟨β, step, n, n', _, .afterAct hfirst hcomes, hstep, rfl⟩
  | actFails hstep =>
    obtain ⟨rfl, rfl⟩ := EStateM.Result.error.inj hr
    exact ⟨_, _, _, _, [], .here, hstep, rfl⟩
  | call hcall _ _ ih =>
    obtain ⟨β, step, n, n', before, hcomes, hstep, rfl⟩ := ih hr
    exact ⟨β, step, n, n', _, .afterCall hcall hcomes, hstep, (List.append_assoc ..).symm⟩
  | callFails _ ih =>
    obtain ⟨rfl, rfl⟩ := EStateM.Result.error.inj hr
    obtain ⟨β, step, n, n', before, hcomes, hstep, rfl⟩ := ih rfl
    exact ⟨β, step, n, n', before, .inCall hcomes, hstep, rfl⟩

/-! ## Runs of an interpreter -/

section Runs

variable {i : Interpreter} {program : Node} {identity : Identity} {stores : List Store}

/-- A run has a history, and it leads to what the run ends in. -/
theorem exists_history (i : Interpreter) (program : Node) (identity : Identity) :
    ∃ stores, History ⟨i.options, identity⟩ (plan ⟨i.options, identity⟩ 0 (.evaluate program))
      (Machine.start i.store i.dice)
      (Run.program ⟨i.options, identity⟩ program (Machine.start i.store i.dice)) stores :=
  (carriedOut_program ⟨i.options, identity⟩ program (Machine.start i.store i.dice)).exists_history

theorem execute_store (i : Interpreter) (program : Node) (identity : Identity) :
    (i.execute program identity).2.store =
      (Run.left (Run.program ⟨i.options, identity⟩ program (Machine.start i.store i.dice))).store := by
  unfold Interpreter.execute Interpreter.run
  cases Run.program ⟨i.options, identity⟩ program (Machine.start i.store i.dice) <;> rfl

theorem execute_error {failure : Failure}
    (h : (i.execute program identity).1 = .error failure) :
    ∃ cause m, Run.program ⟨i.options, identity⟩ program (Machine.start i.store i.dice) =
      .error cause m ∧ cause.kind = failure.kind := by
  unfold Interpreter.execute Interpreter.run at h
  cases hr : Run.program ⟨i.options, identity⟩ program (Machine.start i.store i.dice) with
  | ok v m =>
    rw [hr] at h
    cases h
  | error cause m =>
    rw [hr] at h
    obtain rfl := Except.error.inj h
    exact ⟨cause, m, rfl, rfl⟩

/-- The store that an interpreter is left with is the last one of the history. -/
theorem History.execute_store {r : EStateM.Result Cause Machine Value}
    (h : History ⟨i.options, identity⟩ (plan ⟨i.options, identity⟩ 0 (.evaluate program))
      (Machine.start i.store i.dice) r stores) :
    (i.execute program identity).2.store = stores.getLastD i.store := by
  obtain ⟨stores', h'⟩ := exists_history i program identity
  obtain ⟨rfl, -⟩ := h.unique h'
  rw [Recursion.execute_store, h.left_store]
  rfl

/-- The stores that an interpreter passes through as it runs programs in turn, each as someone and on
what those before it left, whether they failed or not. -/
inductive Passes : Interpreter → List (Node × Identity) → List Store → Prop where
  | nil (i : Interpreter) : Passes i [] []
  | run {i : Interpreter} {program : Node} {identity : Identity} {rest : List (Node × Identity)}
      {r : EStateM.Result Cause Machine Value} {stores more : List Store} :
      History ⟨i.options, identity⟩ (plan ⟨i.options, identity⟩ 0 (.evaluate program))
        (Machine.start i.store i.dice) r stores →
      Passes (i.execute program identity).2 rest more →
        Passes i ((program, identity) :: rest) (stores ++ more)

/-- Programs in turn pass through the stores of one list and of no other. -/
theorem exists_passes (i : Interpreter) (commands : List (Node × Identity)) :
    ∃ stores, Passes i commands stores := by
  induction commands generalizing i with
  | nil => exact ⟨[], .nil i⟩
  | cons command rest ih =>
    obtain ⟨program, identity⟩ := command
    obtain ⟨stores, hrun⟩ := exists_history i program identity
    obtain ⟨more, hrest⟩ := ih (i.execute program identity).2
    exact ⟨stores ++ more, .run hrun hrest⟩

theorem Passes.unique {commands : List (Node × Identity)} {stores' : List Store}
    (h : Passes i commands stores) (h' : Passes i commands stores') : stores = stores' := by
  induction h generalizing stores' with
  | nil i =>
    cases h'
    rfl
  | run hrun _ ih =>
    cases h' with
    | run hrun' hrest => rw [(hrun.unique hrun').2, ih hrest]

def afterAll (i : Interpreter) (commands : List (Node × Identity)) : Interpreter :=
  commands.foldl (fun i x => (i.execute x.1 x.2).2) i

theorem Passes.afterAll_store {commands : List (Node × Identity)} (h : Passes i commands stores) :
    (afterAll i commands).store = stores.getLastD i.store := by
  induction h with
  | nil i => rfl
  | run hrun _ ih => rw [getLastD_append, ← hrun.execute_store, ← ih, afterAll, afterAll, List.foldl_cons]

end Runs

end DiceScript.Recursion
