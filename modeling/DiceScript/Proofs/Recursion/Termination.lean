import DiceScript.Interpreter
import DiceScript.Proofs.Recursion.Plan

/-!
# Every run ends

A plan is *carried out* by a step when from every state it ends in what the step yields. Each way of
making a run has such a rule, so the plan of every task is carried out by the run of that task with as
many turns and levels of calls left as its counters leave. Hence every call ends, the recursion of a
run is well founded, and what an interpreter reports is where it ends.

- `Plan.CarriedOut` — the property of a plan and a step, with its rules.
- `carriedOut_evaluate` — nodes, by recursion on the tree for a given number of levels.
- `exists_carriedOut` — every task at every depth.
- `wellFounded_invokes` — the recursion is well founded.
- `every_run_ends` — a run ends in a value or a failure.
-/

namespace DiceScript.Recursion

variable {c : Context}

/-- From every state a plan ends in what the step yields. -/
def Plan.CarriedOut {α : Type} (c : Context) (p : Plan α) (step : Run α) : Prop :=
  ∀ m, Ends c p m (step m)

namespace Plan.CarriedOut

variable {α β : Type} {depth : Nat} {task : Task}

theorem pure (a : α) : CarriedOut c (Pure.pure a) (Pure.pure a) :=
  fun m => .done a m

theorem step (s : Run α) : CarriedOut c (Plan.step s) s := by
  intro m
  cases hs : s m with
  | ok a m' => exact .act hs (.done a m')
  | error cause m' => exact .actFails hs

theorem bind {p : Plan α} {s : Run α} {f : α → Plan β} {next : α → Run β} (h : CarriedOut c p s)
    (hnext : ∀ a, CarriedOut c (f a) (next a)) : CarriedOut c (p >>= f) (s >>= next) := by
  intro m
  have hm := h m
  show Ends c (p.bind f) m (EStateM.bind s next m)
  unfold EStateM.bind
  cases hs : s m with
  | ok a m' =>
    rw [hs] at hm
    exact hm.bind (hnext a m')
  | error cause m' =>
    rw [hs] at hm
    exact hm.bindFails

theorem invoke {s : Run Value} (h : CarriedOut c (plan c depth task) s) :
    CarriedOut c (Plan.invoke depth task) s := by
  intro m
  have hm := h m
  cases hs : s m with
  | ok v m' =>
    rw [hs] at hm
    exact .call hm (.done v m')
  | error cause m' =>
    rw [hs] at hm
    exact .callFails hm

theorem invokeIn {frame : Bindings} {s : Run Value} (h : CarriedOut c (plan c depth task) s) :
    CarriedOut c (Plan.invokeIn frame depth task) (Run.inFrame frame s) := by
  intro m
  have hm := h (m.push frame)
  unfold Run.inFrame
  cases hs : s (m.push frame) with
  | ok v m' =>
    rw [hs] at hm
    exact .call hm (.done v _)
  | error cause m' =>
    rw [hs] at hm
    exact .callFails hm

section Operands

variable {node : Node} {s : Run Value}

theorem operand (h : CarriedOut c (plan c depth (.evaluate node)) s) :
    CarriedOut c (Plan.operand depth node) (Run.operand node s) :=
  bind (invoke h) fun _ => step _

theorem condition (h : CarriedOut c (plan c depth (.evaluate node)) s) :
    CarriedOut c (Plan.condition depth node) (Run.condition node s) := by
  have hbind : Run.condition node s = s >>= fun v => Run.condition node (Pure.pure v) :=
    bind_assoc s _ _
  rw [hbind]
  exact bind (invoke h) fun _ => step _

theorem dieParameter {which : DieParameter} (h : CarriedOut c (plan c depth (.evaluate node)) s) :
    CarriedOut c (Plan.dieParameter depth which node) (Run.dieParameter which node s) := by
  have hbind : Run.dieParameter which node s =
      s >>= fun v => Run.dieParameter which node (Pure.pure v) := bind_assoc s _ _
  rw [hbind]
  exact bind (invoke h) fun _ => step _

end Operands

end Plan.CarriedOut

open Plan (CarriedOut)

/-! ## Loops -/

section Loops

variable {depth : Nat} {test : Node} {body : List Node} {testStep bodyStep : Run Value}

/-- A turn of a loop, with as many turns left as the counter leaves. -/
theorem carriedOut_whileTurn (htest : CarriedOut c (plan c depth (.evaluate test)) testStep)
    (hbody : CarriedOut c (plan c depth (.block body)) bodyStep) {room : Nat} :
    ∀ {taken : Nat} (last : Value), c.options.limits.maxLoopIterations.toNat - taken = room →
      CarriedOut c (plan c depth (.whileTurn taken last test body))
        (Run.whileLoop c.options.limits (Run.condition test testStep) bodyStep room last) := by
  induction room with
  | zero =>
    intro taken last hroom
    refine CarriedOut.bind (CarriedOut.condition htest) fun b => ?_
    cases b with
    | true =>
      have hspent : c.options.limits.maxLoopIterations.toNat ≤ taken := by omega
      simp only [if_pos hspent]
      exact CarriedOut.step _
    | false => exact CarriedOut.pure last
  | succ room ih =>
    intro taken last hroom
    refine CarriedOut.bind (CarriedOut.condition htest) fun b => ?_
    cases b with
    | true =>
      have hspare : ¬ c.options.limits.maxLoopIterations.toNat ≤ taken := by omega
      simp only [if_neg hspare]
      refine CarriedOut.bind (CarriedOut.step _) fun _ => ?_
      refine CarriedOut.bind (CarriedOut.invoke hbody) fun v => CarriedOut.invoke ?_
      exact ih v (by omega)
    | false => exact CarriedOut.pure last

theorem carriedOut_doWhileTurn (htest : CarriedOut c (plan c depth (.evaluate test)) testStep)
    (hbody : CarriedOut c (plan c depth (.block body)) bodyStep) {room : Nat} :
    ∀ {taken : Nat}, c.options.limits.maxLoopIterations.toNat - taken = room →
      CarriedOut c (plan c depth (.doWhileTurn taken body test))
        (Run.doWhileLoop c.options.limits (Run.condition test testStep) bodyStep room) := by
  induction room with
  | zero =>
    intro taken hroom
    have hspent : c.options.limits.maxLoopIterations.toNat ≤ taken := by omega
    simp only [plan, if_pos hspent]
    exact CarriedOut.step _
  | succ room ih =>
    intro taken hroom
    have hspare : ¬ c.options.limits.maxLoopIterations.toNat ≤ taken := by omega
    simp only [plan, if_neg hspare]
    refine CarriedOut.bind (CarriedOut.step _) fun _ => ?_
    refine CarriedOut.bind (CarriedOut.invoke hbody) fun v => ?_
    refine CarriedOut.bind (CarriedOut.condition htest) fun b => ?_
    cases b with
    | true => exact CarriedOut.invoke (ih (by omega))
    | false => exact CarriedOut.pure v

end Loops

/-! ## Calls -/

/-- At a depth of calls, bodies are run one level further down as long as there is one. -/
def Serves (c : Context) (depth : Nat) : Run.Deeper → Prop
  | none => c.options.limits.maxCallDepth.toNat ≤ depth
  | some run => depth < c.options.limits.maxCallDepth.toNat ∧
      ∀ body, CarriedOut c (plan c (depth + 1) (.block body)) (run body)

section Calls

variable {depth : Nat} {deeper : Run.Deeper} {args : List Node} {values : Run (List Value)}

theorem carriedOut_callFunction (hd : Serves c depth deeper) (name : String) (f : Function)
    (hargs : CarriedOut c (Plan.operands depth args) values) :
    CarriedOut c (Plan.callFunction c depth name args (.function f))
      (Run.callFunction c deeper name f args.length values) := by
  unfold Plan.callFunction Run.callFunction
  by_cases harity : args.length ≠ f.arity
  · simp only [if_pos harity]
    exact CarriedOut.step _
  simp only [if_neg harity]
  cases deeper with
  | none =>
    rw [if_pos (show c.options.limits.maxCallDepth.toNat ≤ depth from hd)]
    exact CarriedOut.step _
  | some run =>
    obtain ⟨hspare, hbody⟩ := hd
    rw [if_neg (Nat.not_le.mpr hspare)]
    exact CarriedOut.bind hargs fun vs => CarriedOut.invokeIn (hbody f.body)

theorem carriedOut_call (hd : Serves c depth deeper) (name : String) (tier : Option Tier)
    (hargs : CarriedOut c (Plan.operands depth args) values) :
    CarriedOut c (plan c depth (.evaluate (.call name tier args)))
      (Run.call c deeper name tier args.length values) := by
  intro m
  have hcallee : (do return Run.callee c (← get) name tier : Run Value) m =
      .ok (Run.callee c m name tier) m := rfl
  refine Ends.act hcallee ?_
  unfold Run.call
  dsimp only [bind, EStateM.bind, get, getThe, MonadStateOf.get, EStateM.get]
  cases Run.callee c m name tier with
  | function f => exact carriedOut_callFunction hd name f hargs m
  | _ => exact CarriedOut.step _ m

end Calls

/-! ## Nodes -/

section Nodes

variable {depth : Nat} {deeper : Run.Deeper}

mutual

theorem carriedOut_evaluate (hd : Serves c depth deeper) :
    ∀ node : Node, CarriedOut c (plan c depth (.evaluate node)) (Run.evaluate c deeper node)
  | .integer n => CarriedOut.pure _
  | .float x => CarriedOut.pure _
  | .string s => CarriedOut.pure _
  | .boolean b => CarriedOut.pure _
  | .list items => by
    rw [Run.evaluate]
    exact CarriedOut.bind (carriedOut_operands hd items) fun vs => CarriedOut.pure _
  | .identifier name => by
    rw [Run.evaluate]
    exact CarriedOut.step _
  | .qualifiedIdentifier tier name => by
    rw [Run.evaluate]
    exact CarriedOut.step _
  | .group inner => by
    rw [Run.evaluate]
    exact CarriedOut.invoke (carriedOut_evaluate hd inner)
  | .binary op left right => by
    rw [Run.evaluate]
    refine CarriedOut.bind (CarriedOut.operand (carriedOut_evaluate hd left)) fun l => ?_
    refine CarriedOut.bind (CarriedOut.operand (carriedOut_evaluate hd right)) fun r => ?_
    exact CarriedOut.step _
  | .unary op node => by
    rw [Run.evaluate]
    refine CarriedOut.bind (CarriedOut.operand (carriedOut_evaluate hd node)) fun v => ?_
    exact CarriedOut.step _
  | .dice count sides form => by
    rw [Run.evaluate]
    refine CarriedOut.bind (carriedOut_dieCount hd count) fun n => ?_
    refine CarriedOut.bind (CarriedOut.dieParameter (carriedOut_evaluate hd sides)) fun m => ?_
    exact CarriedOut.step _
  | .block body => by
    rw [Run.evaluate]
    exact CarriedOut.invoke (carriedOut_statements hd .undefined body)
  | .assign name node => by
    rw [Run.evaluate]
    refine CarriedOut.bind (CarriedOut.operand (carriedOut_evaluate hd node)) fun v => ?_
    exact CarriedOut.step _
  | .qualifiedAssign tier name node => by
    rw [Run.evaluate]
    refine CarriedOut.bind (CarriedOut.step _) fun _ => ?_
    refine CarriedOut.bind (CarriedOut.operand (carriedOut_evaluate hd node)) fun v => ?_
    exact CarriedOut.step _
  | .delete none name => by
    rw [Run.evaluate]
    exact CarriedOut.step _
  | .delete (some tier) name => by
    rw [Run.evaluate]
    exact CarriedOut.step _
  | .print node => by
    rw [Run.evaluate]
    refine CarriedOut.bind (CarriedOut.operand (carriedOut_evaluate hd node)) fun v => ?_
    exact CarriedOut.step _
  | .branch test consequent alternative => by
    rw [Run.evaluate]
    refine CarriedOut.bind (CarriedOut.condition (carriedOut_evaluate hd test)) fun b => ?_
    cases b with
    | true => exact CarriedOut.invoke (carriedOut_statements hd .undefined consequent)
    | false => exact CarriedOut.invoke (carriedOut_statements hd .undefined alternative)
  | .whileLoop test body => by
    rw [Run.evaluate]
    exact CarriedOut.invokeIn (carriedOut_whileTurn (carriedOut_evaluate hd test)
      (carriedOut_statements hd .undefined body) .undefined (Nat.sub_zero _))
  | .doWhile body test => by
    rw [Run.evaluate]
    exact CarriedOut.invokeIn (carriedOut_doWhileTurn (carriedOut_evaluate hd test)
      (carriedOut_statements hd .undefined body) (Nat.sub_zero _))
  | .define name params body tier => by
    rw [Run.evaluate]
    exact CarriedOut.step _
  | .call name tier args => by
    rw [Run.evaluate]
    exact carriedOut_call hd name tier (carriedOut_operands hd args)

theorem carriedOut_statements (hd : Serves c depth deeper) :
    ∀ (last : Value) (body : List Node),
      CarriedOut c (Plan.statements depth last body) (Run.block c deeper last body)
  | last, [] => CarriedOut.pure last
  | last, node :: rest => by
    rw [Run.block]
    refine CarriedOut.bind (CarriedOut.invoke (carriedOut_evaluate hd node)) fun v => ?_
    exact carriedOut_statements hd v rest

theorem carriedOut_operands (hd : Serves c depth deeper) :
    ∀ nodes : List Node, CarriedOut c (Plan.operands depth nodes) (Run.operands c deeper nodes)
  | [] => CarriedOut.pure _
  | node :: rest => by
    rw [Run.operands]
    refine CarriedOut.bind (CarriedOut.operand (carriedOut_evaluate hd node)) fun v => ?_
    exact CarriedOut.bind (carriedOut_operands hd rest) fun vs => CarriedOut.pure _

theorem carriedOut_dieCount (hd : Serves c depth deeper) :
    ∀ count : Option Node, CarriedOut c (Plan.dieCount depth count) (Run.dieCount c deeper count)
  | none => CarriedOut.pure _
  | some node => by
    rw [Run.dieCount]
    exact CarriedOut.dieParameter (carriedOut_evaluate hd node)

end

end Nodes

/-! ## Whole runs -/

/-- Function bodies are not parts of the program, but the levels of calls that are left go down. -/
theorem serves_deeper {levels : Nat} :
    ∀ {depth : Nat}, c.options.limits.maxCallDepth.toNat - depth = levels →
      Serves c depth (Run.deeper c levels) := by
  induction levels with
  | zero =>
    intro depth hlevels
    exact Nat.le_of_sub_eq_zero hlevels
  | succ levels ih =>
    intro depth hlevels
    have hspare : depth < c.options.limits.maxCallDepth.toNat := by omega
    exact ⟨hspare, carriedOut_statements (ih (by omega)) .undefined⟩

/-- Some step carries the plan of a task out, at whatever depth it is called for. -/
theorem exists_carriedOut (c : Context) (depth : Nat) :
    ∀ task, ∃ s, CarriedOut c (plan c depth task) s := by
  have hd : Serves c depth (Run.deeper c (c.options.limits.maxCallDepth.toNat - depth)) :=
    serves_deeper rfl
  intro task
  cases task with
  | evaluate node => exact ⟨_, carriedOut_evaluate hd node⟩
  | block body => exact ⟨_, carriedOut_statements hd .undefined body⟩
  | whileTurn taken last test body =>
    exact ⟨_, carriedOut_whileTurn (carriedOut_evaluate hd test)
      (carriedOut_statements hd .undefined body) last rfl⟩
  | doWhileTurn taken body test =>
    exact ⟨_, carriedOut_doWhileTurn (carriedOut_evaluate hd test)
      (carriedOut_statements hd .undefined body) rfl⟩

theorem carriedOut_program (c : Context) (node : Node) :
    CarriedOut c (plan c 0 (.evaluate node)) (Run.program c node) :=
  carriedOut_evaluate (serves_deeper (Nat.sub_zero _)) node

/-- No call makes calls without end: there is no infinite descent in the recursion of a run. -/
theorem wellFounded_invokes (c : Context) : WellFounded (Invokes c) := by
  constructor
  intro y
  obtain ⟨s, hs⟩ := exists_carriedOut c y.depth y.task
  exact .intro y (hs y.machine).acc

/-- With any options and dice, on any store and as anyone, the recursion of a run is well founded, and
every program comes to an end: in a value or in a failure, which is what the interpreter reports. -/
theorem every_run_ends (options : Options) (dice : Dice.Stream) (store : Store) (program : Node)
    (identity : Identity) :
    WellFounded (Invokes ⟨options, identity⟩) ∧
      ((∃ value m, Ends ⟨options, identity⟩ (plan ⟨options, identity⟩ 0 (.evaluate program))
          (Machine.start store dice) (.ok value m) ∧
          Interpreter.run options dice store program identity =
            (.ok { value, actions := m.log.toList }, m.store)) ∨
        (∃ cause m, Ends ⟨options, identity⟩ (plan ⟨options, identity⟩ 0 (.evaluate program))
          (Machine.start store dice) (.error cause m) ∧
          Interpreter.run options dice store program identity =
            (.error (cause.failure m.log.toList), m.store))) := by
  refine ⟨wellFounded_invokes _, ?_⟩
  have hend := carriedOut_program ⟨options, identity⟩ program (Machine.start store dice)
  unfold Interpreter.run
  cases hrun : Run.program ⟨options, identity⟩ program (Machine.start store dice) with
  | ok value m =>
    rw [hrun] at hend
    exact .inl ⟨value, m, hend, rfl⟩
  | error cause m =>
    rw [hrun] at hend
    exact .inr ⟨cause, m, hend, rfl⟩

end DiceScript.Recursion
