import DiceScript.Eval.Node

/-!
# The calls of a run

Running a node calls for the running of other nodes, blocks and turns of loops. Nothing in the way
these calls are made says that they end: a loop calls for its next turn with the same test and body,
and a function's body comes from the store, where the run may just have put it. All that stands
against an endless run are counters that go up, the turns of a loop and the depth of calls, each
compared with its limit when it is due.

This module writes that recursion down without making it. A *task* is what can be called for, a *plan*
says what a task does between its calls, and `Ends` says by rules how a plan ends when every call in
it is made. A plan with an endless call in it ends in nothing.

- `Task`, `Plan`, `plan` — the recursion of a run.
- `Ends` — how plans end; `Ends.unique` — in one way at most.
- `Invokes` — one call makes another.
-/

namespace DiceScript.Recursion

/-- What a run can call for. -/
inductive Task where
  | evaluate (node : Node)
  | block (statements : List Node)
  /-- A turn of a loop that has taken so many and whose body yielded `last`. -/
  | whileTurn (taken : Nat) (last : Value) (test : Node) (body : List Node)
  | doWhileTurn (taken : Nat) (body : List Node) (test : Node)

/-- Steps and calls in turn. A call is made at a depth of calls of functions, and in a frame of its
own if one is given. -/
inductive Plan (α : Type) : Type 1 where
  | done (a : α)
  | act {β : Type} (step : Run β) (next : β → Plan α)
  | call (depth : Nat) (frame : Option Bindings) (task : Task) (next : Value → Plan α)

namespace Plan

variable {α β : Type}

def bind : Plan α → (α → Plan β) → Plan β
  | .done a, f => f a
  | .act step next, f => .act step fun b => (next b).bind f
  | .call depth frame task next, f => .call depth frame task fun v => (next v).bind f

instance : Monad Plan where
  pure := .done
  bind := .bind

def step (s : Run α) : Plan α := .act s .done

def fail (cause : Cause) : Plan α := step (throw cause)

def invoke (depth : Nat) (task : Task) : Plan Value := .call depth none task .done

def invokeIn (frame : Bindings) (depth : Nat) (task : Task) : Plan Value :=
  .call depth (some frame) task .done

/-! ## The plans of tasks -/

def operand (depth : Nat) (node : Node) : Plan Value := do
  let v ← invoke depth (.evaluate node)
  step (Run.operand node (pure v))

def condition (depth : Nat) (node : Node) : Plan Bool := do
  let v ← invoke depth (.evaluate node)
  step (Run.condition node (pure v))

def dieParameter (depth : Nat) (which : DieParameter) (node : Node) : Plan Int64 := do
  let v ← invoke depth (.evaluate node)
  step (Run.dieParameter which node (pure v))

def operands (depth : Nat) : List Node → Plan (List Value)
  | [] => pure []
  | node :: rest => do
    let v ← operand depth node
    let vs ← operands depth rest
    return v :: vs

def statements (depth : Nat) (last : Value) : List Node → Plan Value
  | [] => pure last
  | node :: rest => do
    let v ← invoke depth (.evaluate node)
    statements depth v rest

def dieCount (depth : Nat) : Option Node → Plan Int64
  | none => pure 1
  | some node => dieParameter depth .count node

/-- The arguments of a function are evaluated at the depth of the call, its body one further down. -/
def callFunction (c : Context) (depth : Nat) (name : String) (args : List Node) :
    Value → Plan Value
  | .function f =>
    if args.length ≠ f.arity then fail (.arity name f.arity args.length)
    else if c.options.limits.maxCallDepth.toNat ≤ depth then
      fail (.callDepth c.options.limits.maxCallDepth name)
    else do
      let values ← operands depth args
      invokeIn (Dict.ofList (f.params.zip values)) (depth + 1) (.block f.body)
  | .undefined => fail (.missing name)
  | v => fail (.notAFunction name v.type)

def evaluate (c : Context) (depth : Nat) : Node → Plan Value
  | .integer n => pure (.integer n)
  | .float x => pure (.float x)
  | .string s => pure (.string s)
  | .boolean b => pure (.boolean b)
  | .list items => do
    let vs ← operands depth items
    return .list vs
  | .identifier name => step do return c.lookup (← get) name
  | .qualifiedIdentifier tier name => step do return c.qualified (← get) tier name
  | .group inner => invoke depth (.evaluate inner)
  | .binary op left right => do
    let l ← operand depth left
    let r ← operand depth right
    step (Run.ofExcept (Operator.binary c.options.limits op l r))
  | .unary op node => do
    let v ← operand depth node
    step (Run.ofExcept (Operator.unary op v))
  | .dice count sides form => do
    let n ← dieCount depth count
    let m ← dieParameter depth .sides sides
    step (Run.roll c.options.limits.maxDiceDraws n m form)
  | .block body => invoke depth (.block body)
  | .assign name node => do
    let v ← operand depth node
    step do
      modify (·.bind name v)
      return v
  | .qualifiedAssign tier name node => do
    step (Run.writable tier name)
    let v ← operand depth node
    step do
      Run.putQualified c tier name v
      return v
  | .delete none name => step (Run.unbindLocal name)
  | .delete (some tier) name => step (Run.dropQualified c tier name)
  | .print node => do
    let v ← operand depth node
    step do
      Run.log v.display
      return v
  | .branch test consequent alternative => do
    if ← condition depth test then invoke depth (.block consequent)
    else invoke depth (.block alternative)
  | .whileLoop test body => invokeIn {} depth (.whileTurn 0 .undefined test body)
  | .doWhile body test => invokeIn {} depth (.doWhileTurn 0 body test)
  | .define name params body tier =>
    step (Run.define c { name, params, body, tier := tier.getD .personal })
  | .call name tier args => do
    let v ← step do return Run.callee c (← get) name tier
    callFunction c depth name args v

end Plan

open Plan in
/-- What a task does at a depth of calls. -/
def plan (c : Context) (depth : Nat) : Task → Plan Value
  | .evaluate node => evaluate c depth node
  | .block body => statements depth .undefined body
  | .whileTurn taken last test body => do
    if ← condition depth test then
      if c.options.limits.maxLoopIterations.toNat ≤ taken then
        fail (.timeout .whileLoop c.options.limits.maxLoopIterations)
      else do
        step (Run.chargeLoop c.options.limits.maxTotalLoopIterations .whileLoop)
        let last ← invoke depth (.block body)
        invoke depth (.whileTurn (taken + 1) last test body)
    else return last
  | .doWhileTurn taken body test =>
    if c.options.limits.maxLoopIterations.toNat ≤ taken then
      fail (.timeout .doWhileLoop c.options.limits.maxLoopIterations)
    else do
      step (Run.chargeLoop c.options.limits.maxTotalLoopIterations .doWhileLoop)
      let last ← invoke depth (.block body)
      if ← condition depth test then invoke depth (.doWhileTurn (taken + 1) body test)
      else return last

/-! ## How plans end -/

def enter (m : Machine) : Option Bindings → Machine
  | some frame => m.push frame
  | none => m

def leave (m : Machine) : Option Bindings → Machine
  | some _ => m.pop
  | none => m

/-- A plan that starts in a state ends in a result, with every call in it made. -/
inductive Ends (c : Context) :
    {α : Type} → Plan α → Machine → EStateM.Result Cause Machine α → Prop where
  | done {α : Type} (a : α) (m : Machine) : Ends c (.done a) m (.ok a m)
  | act {α β : Type} {step : Run β} {next : β → Plan α} {m m' : Machine} {b : β}
      {r : EStateM.Result Cause Machine α} :
      step m = .ok b m' → Ends c (next b) m' r → Ends c (.act step next) m r
  | actFails {α β : Type} {step : Run β} {next : β → Plan α} {m m' : Machine} {cause : Cause} :
      step m = .error cause m' → Ends c (.act step next) m (.error cause m')
  | call {α : Type} {depth : Nat} {frame : Option Bindings} {task : Task} {next : Value → Plan α}
      {m m' : Machine} {v : Value} {r : EStateM.Result Cause Machine α} :
      Ends c (plan c depth task) (enter m frame) (.ok v m') → Ends c (next v) (leave m' frame) r →
        Ends c (.call depth frame task next) m r
  | callFails {α : Type} {depth : Nat} {frame : Option Bindings} {task : Task}
      {next : Value → Plan α} {m m' : Machine} {cause : Cause} :
      Ends c (plan c depth task) (enter m frame) (.error cause m') →
        Ends c (.call depth frame task next) m (.error cause (leave m' frame))

namespace Ends

variable {c : Context} {α β : Type} {p : Plan α} {m m' : Machine}

/-- A plan ends in one result at most. -/
theorem unique {r r' : EStateM.Result Cause Machine α} (h : Ends c p m r) (h' : Ends c p m r') :
    r = r' := by
  induction h with
  | done a m =>
    cases h'
    rfl
  | act hstep _ ih =>
    cases h' with
    | act hstep' hnext =>
      obtain ⟨rfl, rfl⟩ := EStateM.Result.ok.inj (hstep.symm.trans hstep')
      exact ih hnext
    | actFails hstep' => cases hstep.symm.trans hstep'
  | actFails hstep =>
    cases h' with
    | act hstep' _ => cases hstep.symm.trans hstep'
    | actFails hstep' =>
      obtain ⟨rfl, rfl⟩ := EStateM.Result.error.inj (hstep.symm.trans hstep')
      rfl
  | call _ _ ihcall ihnext =>
    cases h' with
    | call hcall hnext =>
      obtain ⟨rfl, rfl⟩ := EStateM.Result.ok.inj (ihcall hcall)
      exact ihnext hnext
    | callFails hcall => cases ihcall hcall
  | callFails _ ihcall =>
    cases h' with
    | call hcall _ => cases ihcall hcall
    | callFails hcall =>
      obtain ⟨rfl, rfl⟩ := EStateM.Result.error.inj (ihcall hcall)
      rfl

theorem bind {f : α → Plan β} {a : α} {r : EStateM.Result Cause Machine β}
    (h : Ends c p m (.ok a m')) (hnext : Ends c (f a) m' r) : Ends c (p.bind f) m r := by
  generalize hend : EStateM.Result.ok a m' = end' at h
  induction h with
  | done b m =>
    obtain ⟨rfl, rfl⟩ := EStateM.Result.ok.inj hend
    exact hnext
  | act hstep _ ih => exact .act hstep (ih hnext hend)
  | actFails _ => cases hend
  | call hcall _ _ ih => exact .call hcall (ih hnext hend)
  | callFails _ => cases hend

theorem bindFails {f : α → Plan β} {cause : Cause} (h : Ends c p m (.error cause m')) :
    Ends c (p.bind f) m (.error cause m') := by
  generalize hend : EStateM.Result.error cause m' = end' at h
  induction h with
  | done b m => cases hend
  | act hstep _ ih => exact .act hstep (ih hend)
  | actFails hstep =>
    obtain ⟨rfl, rfl⟩ := EStateM.Result.error.inj hend
    exact .actFails hstep
  | call hcall _ _ ih => exact .call hcall (ih hend)
  | callFails hcall =>
    obtain ⟨rfl, rfl⟩ := EStateM.Result.error.inj hend
    exact .callFails hcall

end Ends

/-! ## Which calls a call makes -/

structure Call where
  depth : Nat
  task : Task
  machine : Machine

/-- A plan that starts in a state comes to make a call, all calls before it having ended. -/
inductive Makes (c : Context) : {α : Type} → Plan α → Machine → Call → Prop where
  | here {α : Type} {depth : Nat} {frame : Option Bindings} {task : Task} {next : Value → Plan α}
      {m : Machine} : Makes c (.call depth frame task next) m ⟨depth, task, enter m frame⟩
  | afterAct {α β : Type} {step : Run β} {next : β → Plan α} {m m' : Machine} {b : β} {x : Call} :
      step m = .ok b m' → Makes c (next b) m' x → Makes c (.act step next) m x
  | afterCall {α : Type} {depth : Nat} {frame : Option Bindings} {task : Task}
      {next : Value → Plan α} {m m' : Machine} {v : Value} {x : Call} :
      Ends c (plan c depth task) (enter m frame) (.ok v m') → Makes c (next v) (leave m' frame) x →
        Makes c (.call depth frame task next) m x

/-- The call `y` makes the call `x`. -/
def Invokes (c : Context) (x y : Call) : Prop :=
  Makes c (plan c y.depth y.task) y.machine x

/-- What a plan calls for on its way to an end is accessible: its own calls end, too. -/
theorem Ends.acc {c : Context} {α : Type} {p : Plan α} {m : Machine}
    {r : EStateM.Result Cause Machine α} (h : Ends c p m r) :
    ∀ x, Makes c p m x → Acc (Invokes c) x := by
  induction h with
  | done a m =>
    intro x hx
    cases hx
  | act hstep _ ih =>
    intro x hx
    cases hx with
    | afterAct hstep' hx =>
      obtain ⟨rfl, rfl⟩ := EStateM.Result.ok.inj (hstep.symm.trans hstep')
      exact ih x hx
  | actFails hstep =>
    intro x hx
    cases hx with
    | afterAct hstep' _ => cases hstep.symm.trans hstep'
  | call hcall _ ihcall ihnext =>
    intro x hx
    cases hx with
    | here => exact .intro _ ihcall
    | afterCall hcall' hx =>
      obtain ⟨rfl, rfl⟩ := EStateM.Result.ok.inj (hcall.unique hcall')
      exact ihnext x hx
  | callFails hcall ihcall =>
    intro x hx
    cases hx with
    | here => exact .intro _ ihcall
    | afterCall hcall' _ => cases hcall.unique hcall'

end DiceScript.Recursion
