import DiceScript.Proofs.Eval.Invariant
import DiceScript.Proofs.Recursion.Plan

/-!
# What plans are made of

Between its calls a plan takes steps of a few kinds, and each of them changes little: the innermost
frame, the store, the log or the dice. Its calls are of a few kinds, too: nodes and blocks at its own
depth, a loop in a frame of its own, and the body of a function in a frame of its own one level further
down. Only the turns of a loop do more, since they count; where in a turn a plan is tells what comes
next: the loop gives up, or the turn is counted, its body runs, and the next turn is called for.

- `Primitive` — the steps.
- `Primitive.changes` — what they change.
- `Plan.Made` — the plans, by how they go on.
- `made_plan` — every task has such a plan.
-/

namespace DiceScript

def Run.left {α : Type} : EStateM.Result Cause Machine α → Machine
  | .ok _ m => m
  | .error _ m => m

@[simp] theorem Run.left_ok {α : Type} (a : α) (m : Machine) :
    Run.left (.ok a m : EStateM.Result Cause Machine α) = m := rfl

@[simp] theorem Run.left_error {α : Type} (cause : Cause) (m : Machine) :
    Run.left (.error cause m : EStateM.Result Cause Machine α) = m := rfl

/-- A turn is counted whether or not the budget has room for it. -/
theorem Run.run_chargeLoop (limit : UInt64) (what : Guarded) (m : Machine) :
    Run.chargeLoop limit what m =
      if limit.toNat < m.iterations + 1 then
        .error (.timeout what limit) { m with iterations := m.iterations + 1 }
      else .ok () { m with iterations := m.iterations + 1 } := by
  show (if limit.toNat < m.iterations + 1 then throw (.timeout what limit) else pure () : Run Unit)
    { m with iterations := m.iterations + 1 } = _
  split <;> rfl

def Cause.isTimeout : Cause → Bool
  | .timeout .. => true
  | _ => false

namespace Recursion

/-! ## Steps -/

/-- The steps of plans, those that count turns apart. -/
inductive Primitive (c : Context) : {β : Type} → Run β → Prop where
  | read (name : String) (tier : Option Tier) :
      Primitive c (do return Run.callee c (← get) name tier)
  | operand (node : Node) (v : Value) : Primitive c (Run.operand node (pure v))
  | condition (node : Node) (v : Value) : Primitive c (Run.condition node (pure v))
  | dieParameter (which : DieParameter) (node : Node) (v : Value) :
      Primitive c (Run.dieParameter which node (pure v))
  | binary (op : BinaryOp) (l r : Value) :
      Primitive c (Run.ofExcept (Operator.binary c.options.limits op l r))
  | unary (op : UnaryOp) (v : Value) : Primitive c (Run.ofExcept (Operator.unary op v))
  | roll (count sides : Int64) (form : DieForm) :
      Primitive c (Run.roll c.options.limits.maxDiceDraws count sides form)
  | bind (name : String) (v : Value) : Primitive c (do modify (·.bind name v); return v)
  | unbind (name : String) : Primitive c (Run.unbindLocal name)
  | log (action : String) (v : Value) : Primitive c (do Run.log action; return v)
  | writable (tier : Tier) (name : String) : Primitive c (Run.writable tier name)
  | put (tier : Tier) (name : String) (v : Value) :
      Primitive c (do Run.putQualified c tier name v; return v)
  | drop (tier : Tier) (name : String) : Primitive c (Run.dropQualified c tier name)
  | define (f : Function) : Primitive c (Run.define c f)
  | refuse {β : Type} (cause : Cause) (h : cause.isTimeout = false) :
      Primitive c (throw cause : Run β)

namespace Primitive

open Run (Keeps)

variable {c : Context} {β : Type} {step : Run β}

/-- A step keeps whatever does not depend on the innermost frame, the store, the log and the dice. -/
theorem keeps {I : Machine → Prop} (h : Primitive c step)
    (hI : ∀ m frame store log dice, I m → I { m with frame, store, log, dice }) :
    Keeps I (fun _ => True) step := by
  have hframe : ∀ m frame, I m → I { m with frame } :=
    fun m frame hm => hI m frame m.store m.log m.dice hm
  have hstore : ∀ m store, I m → I { m with store } :=
    fun m store hm => hI m m.frame store m.log m.dice hm
  have hlog : ∀ m action, I m → I (Machine.record m action) :=
    fun m action hm => hI m m.frame m.store (m.log.push action) m.dice hm
  have hdice : ∀ m dice, I m → I { m with dice } :=
    fun m dice hm => hI m m.frame m.store m.log dice hm
  have hpure : ∀ v : Value, Keeps I (fun _ => True) (pure v) := fun v => .pure trivial
  have hput : ∀ tier name v, Keeps I (fun _ => True) (Run.putQualified c tier name v) :=
    fun _ _ _ m hm => Run.Invariant.keeps_put hm fun s _ => hstore m s hm
  cases h with
  | read name tier => exact .bind .get fun _ _ => .pure trivial
  | operand node v => exact (Keeps.operand (hpure v)).weaken fun _ _ => trivial
  | condition node v => exact .condition (hpure v)
  | dieParameter which node v => exact .dieParameter (hpure v)
  | binary op l r => exact .ofExcept fun _ _ => trivial
  | unary op v => exact .ofExcept fun _ _ => trivial
  | roll count sides form => exact .roll hlog hdice (fun _ => trivial) fun _ => trivial
  | bind name v => exact .bind (.modify fun m hm => hframe m _ hm) fun _ _ => hpure v
  | unbind name => exact .getBind fun m hm => ⟨hframe m _ hm, trivial⟩
  | log action v => exact .bind (.modify fun m hm => hlog m action hm) fun _ _ => hpure v
  | writable tier name => exact Run.Invariant.keeps_writable tier name
  | put tier name v => exact .bind (hput tier name v) fun _ _ => hpure v
  | drop tier name =>
    refine .bind (Run.Invariant.keeps_writable tier name) fun _ _ => .getBind fun m hm => ?_
    cases m.store.drop (Namespace.resolve tier c.identity) name with
    | ok p => exact ⟨hstore m p.2 hm, trivial⟩
    | error cause => exact hm
  | define f =>
    unfold Run.define
    split
    · exact .throw _
    · split
      · exact .throw _
      · refine .bind .get fun m _ => ?_
        split
        · exact .throw _
        · exact .bind (hput _ _ _) fun _ _ => .pure trivial
  | refuse cause h => exact .throw cause

/-- The enclosing frames and the count of iterations are as they were. -/
theorem changes (h : Primitive c step) (m : Machine) :
    (Run.left (step m)).outer = m.outer ∧ (Run.left (step m)).iterations = m.iterations := by
  have hkeeps := h.keeps (I := fun n => n.outer = m.outer ∧ n.iterations = m.iterations)
    (fun _ _ _ _ _ hn => hn) m ⟨rfl, rfl⟩
  cases hr : step m with
  | ok b n =>
    rw [hr] at hkeeps
    exact hkeeps.1
  | error cause n =>
    rw [hr] at hkeeps
    exact hkeeps

end Primitive

/-! ## Plans -/

/-- Where in a loop a plan is. -/
inductive Stage where
  /-- In no turn of a loop. -/
  | plain
  /-- In a turn after so many others, whose body has not started. -/
  | fresh (what : Guarded) (taken : Nat)
  /-- In a turn that was counted and whose body is to start. -/
  | charged (what : Guarded) (taken : Nat)
  /-- In a turn whose body has run. -/
  | started (what : Guarded) (taken : Nat)

/-- A turn that was counted does nothing before it starts its body. -/
def Stage.isCharged : Stage → Bool
  | .charged .. => true
  | _ => false

def Task.stage : Task → Stage
  | .whileTurn taken .. => .fresh .whileLoop taken
  | .doWhileTurn taken .. => .fresh .doWhileLoop taken
  | _ => .plain

/-- How much further down in calls of functions a call is made: the body of a function is the one block
that gets a frame. -/
def levels : Option Bindings → Task → Nat
  | some _, .block _ => 1
  | _, _ => 0

/-- The plans of tasks at a depth of calls, and what is left of them at a stage. -/
inductive Plan.Made (c : Context) (depth : Nat) : Stage → {α : Type} → Plan α → Prop where
  | done {stage : Stage} {α : Type} (a : α) (h : stage.isCharged = false) :
      Made c depth stage (.done a)
  | act {stage : Stage} {α β : Type} {step : Run β} {next : β → Plan α}
      (h : stage.isCharged = false) :
      Primitive c step → (∀ b, Made c depth stage (next b)) → Made c depth stage (.act step next)
  | node {stage : Stage} {α : Type} {node : Node} {next : Value → Plan α}
      (h : stage.isCharged = false) :
      (∀ v, Made c depth stage (next v)) →
        Made c depth stage (.call depth none (.evaluate node) next)
  | block {α : Type} {body : List Node} {next : Value → Plan α} :
      (∀ v, Made c depth .plain (next v)) →
        Made c depth .plain (.call depth none (.block body) next)
  | loop {α : Type} {what : Guarded} {task : Task} {next : Value → Plan α} :
      task.stage = .fresh what 0 → (∀ v, Made c depth .plain (next v)) →
        Made c depth .plain (.call depth (some {}) task next)
  | function {α : Type} {frame : Bindings} {body : List Node} {next : Value → Plan α} :
      (∀ v, Made c depth .plain (next v)) →
        Made c depth .plain (.call (depth + 1) (some frame) (.block body) next)
  | stop {α β : Type} {what : Guarded} {taken : Nat} {next : β → Plan α} :
      c.options.limits.maxLoopIterations.toNat ≤ taken →
        Made c depth (.fresh what taken)
          (.act (throw (.timeout what c.options.limits.maxLoopIterations)) next)
  | charge {α : Type} {what : Guarded} {taken : Nat} {next : Unit → Plan α} :
      taken < c.options.limits.maxLoopIterations.toNat →
      (∀ b, Made c depth (.charged what taken) (next b)) →
        Made c depth (.fresh what taken)
          (.act (Run.chargeLoop c.options.limits.maxTotalLoopIterations what) next)
  | body {α : Type} {what : Guarded} {taken : Nat} {body : List Node} {next : Value → Plan α} :
      (∀ v, Made c depth (.started what taken) (next v)) →
        Made c depth (.charged what taken) (.call depth none (.block body) next)
  | again {what : Guarded} {taken : Nat} {task : Task} :
      task.stage = .fresh what (taken + 1) →
        Made c depth (.started what taken) (.call depth none task .done)

namespace Plan

variable {c : Context} {depth : Nat} {stage : Stage}

theorem Made.bind {α β : Type} {p : Plan α} {f : α → Plan β} (h : Made c depth .plain p)
    (hf : ∀ a, Made c depth .plain (f a)) : Made c depth .plain (p >>= f) := by
  show Made c depth .plain (p.bind f)
  generalize hstage : Stage.plain = stage at h
  induction h with
  | done a _ =>
    cases hstage
    exact hf a
  | act _ hstep _ ih =>
    cases hstage
    exact .act rfl hstep fun b => ih b hf rfl
  | node _ _ ih =>
    cases hstage
    exact .node rfl fun v => ih v hf rfl
  | block _ ih => exact .block fun v => ih v hf rfl
  | loop htask _ ih => exact .loop htask fun v => ih v hf rfl
  | function _ ih => exact .function fun v => ih v hf rfl
  | stop _ => cases hstage
  | charge _ _ _ => cases hstage
  | body _ _ => cases hstage
  | again _ => cases hstage

/-! ### How plans go on -/

section Next

variable {α β : Type} {step : Run β} {next : β → Plan α}

theorem Made.act_next (h : Made c depth stage (.act step next)) {m m' : Machine} {b : β}
    (hstep : step m = .ok b m') : ∃ stage', Made c depth stage' (next b) := by
  cases h with
  | act _ _ hnext => exact ⟨_, hnext b⟩
  | stop _ => cases hstep
  | charge _ hnext => exact ⟨_, hnext b⟩

/-- Between its calls, a plan leaves the enclosing frames alone. -/
theorem Made.act_outer (h : Made c depth stage (.act step next)) (m : Machine) :
    (Run.left (step m)).outer = m.outer := by
  cases h with
  | act _ hstep _ => exact (hstep.changes m).1
  | stop _ => rfl
  | charge _ _ =>
    rw [Run.run_chargeLoop]
    split <;> rfl

end Next

section Calls

variable {α : Type} {at' : Nat} {frame : Option Bindings} {task : Task} {next : Value → Plan α}

theorem Made.call_next (h : Made c depth stage (.call at' frame task next)) (v : Value) :
    ∃ stage', Made c depth stage' (next v) := by
  cases h with
  | node _ hnext => exact ⟨_, hnext v⟩
  | block hnext => exact ⟨_, hnext v⟩
  | loop _ hnext => exact ⟨_, hnext v⟩
  | function hnext => exact ⟨_, hnext v⟩
  | body hnext => exact ⟨_, hnext v⟩
  | again _ => exact ⟨.plain, .done v rfl⟩

theorem Made.call_depth (h : Made c depth stage (.call at' frame task next)) :
    at' = depth + levels frame task := by
  cases h with
  | loop htask _ => cases task <;> first | rfl | cases htask
  | _ => rfl

end Calls

/-! ### The plans of tasks -/

theorem Made.step {α : Type} {s : Run α} (h : Primitive c s) : Made c depth .plain (Plan.step s) :=
  .act rfl h fun a => .done a rfl

theorem made_operand (node : Node) : Made c depth .plain (operand depth node) :=
  .node rfl fun v => .step (.operand node v)

theorem made_condition {α : Type} (node : Node) {f : Bool → Plan α} (h : stage.isCharged = false)
    (hf : ∀ b, Made c depth stage (f b)) : Made c depth stage (condition depth node >>= f) :=
  .node h fun v => .act h (.condition node v) hf

theorem made_dieParameter (which : DieParameter) (node : Node) :
    Made c depth .plain (dieParameter depth which node) :=
  .node rfl fun v => .step (.dieParameter which node v)

theorem made_operands (nodes : List Node) : Made c depth .plain (operands depth nodes) := by
  induction nodes with
  | nil => exact .done _ rfl
  | cons node rest ih => exact .bind (made_operand node) fun v => .bind ih fun vs => .done _ rfl

theorem made_statements (body : List Node) :
    ∀ last, Made c depth .plain (statements depth last body) := by
  induction body with
  | nil => exact fun last => .done last rfl
  | cons node rest ih => exact fun _ => .node rfl ih

theorem made_dieCount (count : Option Node) : Made c depth .plain (dieCount depth count) := by
  cases count with
  | none => exact .done _ rfl
  | some node => exact made_dieParameter .count node

theorem made_block (body : List Node) : Made c depth .plain (invoke depth (.block body)) :=
  .block fun v => .done v rfl

theorem made_callFunction (name : String) (args : List Node) (v : Value) :
    Made c depth .plain (callFunction c depth name args v) := by
  unfold callFunction
  split
  · split
    · exact .step (.refuse _ rfl)
    · split
      · exact .step (.refuse _ rfl)
      · exact .bind (made_operands args) fun vs => .function fun v => .done v rfl
  · exact .step (.refuse _ rfl)
  · exact .step (.refuse _ rfl)

theorem made_evaluate (node : Node) : Made c depth .plain (evaluate c depth node) := by
  cases node with
  | integer n => exact .done _ rfl
  | float x => exact .done _ rfl
  | string s => exact .done _ rfl
  | boolean b => exact .done _ rfl
  | list items => exact .bind (made_operands items) fun vs => .done _ rfl
  | identifier name => exact .step (.read name none)
  | qualifiedIdentifier tier name => exact .step (.read name (some tier))
  | group inner => exact .node rfl fun v => .done v rfl
  | binary op left right =>
    refine .bind (made_operand left) fun l => .bind (made_operand right) fun r => ?_
    exact .step (.binary op l r)
  | unary op node => exact .bind (made_operand node) fun v => .step (.unary op v)
  | dice count sides form =>
    refine .bind (made_dieCount count) fun n => .bind (made_dieParameter .sides sides) fun m => ?_
    exact .step (.roll n m form)
  | block body => exact made_block body
  | assign name node => exact .bind (made_operand node) fun v => .step (.bind name v)
  | qualifiedAssign tier name node =>
    refine .bind (.step (.writable tier name)) fun _ => .bind (made_operand node) fun v => ?_
    exact .step (.put tier name v)
  | delete tier name =>
    cases tier with
    | none => exact .step (.unbind name)
    | some tier => exact .step (.drop tier name)
  | print node => exact .bind (made_operand node) fun v => .step (.log v.display v)
  | branch test consequent alternative =>
    refine made_condition test rfl fun b => ?_
    cases b with
    | true => exact made_block consequent
    | false => exact made_block alternative
  | whileLoop test body => exact .loop rfl fun v => .done v rfl
  | doWhile body test => exact .loop rfl fun v => .done v rfl
  | define name params body tier => exact .step (.define _)
  | call name tier args =>
    exact .bind (.step (.read name tier)) fun v => made_callFunction name args v

end Plan

/-- Every task has a plan of this kind. -/
theorem made_plan (c : Context) (depth : Nat) (task : Task) :
    Plan.Made c depth task.stage (plan c depth task) := by
  cases task with
  | evaluate node => exact Plan.made_evaluate node
  | block body => exact Plan.made_statements body .undefined
  | whileTurn taken last test body =>
    refine Plan.made_condition test rfl fun b => ?_
    cases b with
    | false => exact .done last rfl
    | true =>
      by_cases hspent : c.options.limits.maxLoopIterations.toNat ≤ taken
      · simp only [if_pos hspent]
        exact .stop hspent
      · simp only [if_neg hspent]
        exact .charge (by omega) fun _ => .body fun v => .again rfl
  | doWhileTurn taken body test =>
    by_cases hspent : c.options.limits.maxLoopIterations.toNat ≤ taken
    · simp only [plan, if_pos hspent]
      exact .stop hspent
    · simp only [plan, if_neg hspent]
      refine .charge (by omega) fun _ => .body fun v => ?_
      refine Plan.made_condition test rfl fun b => ?_
      cases b with
      | false => exact .done v rfl
      | true => exact .again rfl

end Recursion

end DiceScript
