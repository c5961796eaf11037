import DiceScript.Proofs.Recursion.Shape
import DiceScript.Proofs.Recursion.Termination

/-!
# Scopes are left as they were found

Who runs, how deep the calls of functions are nested and the local frames make up the scope of a run.
A body, a condition or an argument may fail anywhere, and a scope that was opened for it has to be
closed on that way, too.

`Run.evaluate` has no register for the depth of calls and none for the identity: levels of calls are
what its recursion goes down on. `Scoped` is the recursion with both in registers, where a call of a
function counts up before the body and down after it, and whatever is called for finds its depth and
its identity there. The two agree, so the registers are always as they were; and the frames below the
innermost one are as they were, because every frame that is opened is closed.

- `Scope`, `Scoped` — runs with registers.
- `scoped_iff` — they end as runs without them do, registers unchanged.
- `Ends.outer_eq` — the enclosing frames, along every run.
- `evaluate_keeps_scope` — the discipline, for every node.
-/

namespace DiceScript

open EStateM (Result)

/-- A frame that is opened and closed again leaves the frames as they were, if what runs in it keeps
the enclosing ones. -/
theorem Machine.frames_pop {m n : Machine} (h : n.outer = m.frames) : n.pop.frames = m.frames := by
  unfold Machine.pop
  rw [h]
  rfl

namespace Recursion

variable {c : Context} {α : Type}

/-! ## Frames -/

/-- A call keeps the enclosing frames when what it runs does. -/
theorem outer_leave {m n : Machine} {frame : Option Bindings} (h : n.outer = (enter m frame).outer) :
    (leave n frame).outer = m.outer := by
  cases frame with
  | none => exact h
  | some frame => exact congrArg List.tail (Machine.frames_pop h)

/-- A run keeps the frames below the innermost one, however it ends. -/
theorem Ends.outer_eq {p : Plan α} {m : Machine} {r : Result Cause Machine α} (h : Ends c p m r) :
    ∀ {depth : Nat} {stage : Stage}, Plan.Made c depth stage p → (Run.left r).outer = m.outer := by
  induction h with
  | done a m =>
    intro depth stage _
    rfl
  | @act _ _ _ _ m _ _ _ hstep _ ih =>
    intro depth stage hp
    obtain ⟨stage', hnext⟩ := hp.act_next hstep
    have houter := hp.act_outer m
    rw [hstep] at houter
    exact (ih hnext).trans houter
  | @actFails _ _ _ _ m _ _ hstep =>
    intro depth stage hp
    have houter := hp.act_outer m
    rw [hstep] at houter
    exact houter
  | call _ _ ihcall ihnext =>
    intro depth stage hp
    obtain ⟨stage', hnext⟩ := hp.call_next _
    exact (ihnext hnext).trans (outer_leave (ihcall (made_plan c _ _)))
  | callFails _ ihcall =>
    intro depth stage hp
    exact outer_leave (ihcall (made_plan c _ _))

/-- What a plan that is carried out keeps. -/
theorem Plan.CarriedOut.outer_eq {p : Plan α} {step : Run α} {depth : Nat} {stage : Stage}
    (h : Plan.CarriedOut c p step) (hp : Plan.Made c depth stage p) (m : Machine) :
    (Run.left (step m)).outer = m.outer :=
  (h m).outer_eq hp

/-! ## Registers -/

/-- The scope of a run and the rest of its state. -/
structure Scope where
  identity : Identity
  /-- How deep the calls of functions are nested. -/
  depth : Nat
  machine : Machine

namespace Scope

/-- What is called for starts here: a body of a function one call deeper. -/
def enter (s : Scope) (frame : Option Bindings) (task : Task) : Scope :=
  { s with depth := s.depth + levels frame task, machine := Recursion.enter s.machine frame }

def leave (s : Scope) (frame : Option Bindings) (task : Task) : Scope :=
  { s with depth := s.depth - levels frame task, machine := Recursion.leave s.machine frame }

def after (s : Scope) : Result Cause Machine α → Result Cause Scope α
  | .ok a machine => .ok a { s with machine }
  | .error cause machine => .error cause { s with machine }

def left : Result Cause Scope α → Scope
  | .ok _ s => s
  | .error _ s => s

@[simp] theorem left_after (s : Scope) (r : Result Cause Machine α) :
    left (s.after r) = { s with machine := Run.left r } := by
  cases r <;> rfl

theorem leave_enter (s : Scope) (frame : Option Bindings) (task : Task) (machine : Machine) :
    Scope.leave { s.enter frame task with machine } frame task =
      { s with machine := Recursion.leave machine frame } := by
  simp [enter, leave]

end Scope

/-- How plans end when what they call for finds its identity and its depth in registers. -/
inductive Scoped (options : Options) :
    {α : Type} → Plan α → Scope → Result Cause Scope α → Prop where
  | done {α : Type} (a : α) (s : Scope) : Scoped options (.done a) s (.ok a s)
  | act {α β : Type} {step : Run β} {next : β → Plan α} {s : Scope} {m : Machine} {b : β}
      {r : Result Cause Scope α} :
      step s.machine = .ok b m → Scoped options (next b) { s with machine := m } r →
        Scoped options (.act step next) s r
  | actFails {α β : Type} {step : Run β} {next : β → Plan α} {s : Scope} {m : Machine}
      {cause : Cause} :
      step s.machine = .error cause m →
        Scoped options (.act step next) s (.error cause { s with machine := m })
  | call {α : Type} {depth : Nat} {frame : Option Bindings} {task : Task} {next : Value → Plan α}
      {s t inner : Scope} {v : Value} {r : Result Cause Scope α} :
      s.enter frame task = inner →
      Scoped options (plan ⟨options, inner.identity⟩ inner.depth task) inner (.ok v t) →
      Scoped options (next v) (t.leave frame task) r →
        Scoped options (.call depth frame task next) s r
  | callFails {α : Type} {depth : Nat} {frame : Option Bindings} {task : Task}
      {next : Value → Plan α} {s t inner : Scope} {cause : Cause} :
      s.enter frame task = inner →
      Scoped options (plan ⟨options, inner.identity⟩ inner.depth task) inner (.error cause t) →
        Scoped options (.call depth frame task next) s (.error cause (t.leave frame task))

/-- The context that a call finds in the registers. -/
theorem Scope.context_enter {s : Scope} (h : s.identity = c.identity) (frame : Option Bindings)
    (task : Task) : Context.mk c.options (s.enter frame task).identity = c := by
  obtain ⟨options, identity⟩ := c
  subst h
  rfl

/-- A run can be followed with registers. -/
theorem scoped_of_ends {p : Plan α} {m : Machine} {r : Result Cause Machine α}
    (h : Ends c p m r) : ∀ {stage : Stage} {s : Scope}, s.machine = m → s.identity = c.identity →
      Plan.Made c s.depth stage p → Scoped c.options p s (s.after r) := by
  induction h with
  | done a m =>
    rintro stage s rfl _ _
    exact .done a s
  | act hstep _ ih =>
    rintro stage s rfl hidentity hp
    obtain ⟨stage', hnext⟩ := hp.act_next hstep
    exact .act hstep (ih (s := { s with machine := _ }) rfl hidentity hnext)
  | actFails hstep =>
    rintro stage s rfl _ _
    exact .actFails hstep
  | @call _ depth frame task next m m' v r _ _ ihcall ihnext =>
    rintro stage s rfl hidentity hp
    obtain ⟨stage', hnext⟩ := hp.call_next v
    obtain rfl : depth = (s.enter frame task).depth := hp.call_depth
    have hcall := ihcall (s := s.enter frame task) rfl hidentity (made_plan c _ task)
    have hrest : Scoped c.options (next v) { s with machine := leave m' frame } (s.after r) :=
      ihnext rfl hidentity hnext
    rw [← s.leave_enter frame task m'] at hrest
    rw [← Scope.context_enter hidentity frame task] at hcall
    exact .call rfl hcall hrest
  | @callFails _ depth frame task next m m' cause _ ihcall =>
    rintro stage s rfl hidentity hp
    obtain rfl : depth = (s.enter frame task).depth := hp.call_depth
    have hcall := ihcall (s := s.enter frame task) rfl hidentity (made_plan c _ task)
    show Scoped c.options _ s (.error cause { s with machine := leave m' frame })
    rw [← s.leave_enter frame task m']
    rw [← Scope.context_enter hidentity frame task] at hcall
    exact .callFails rfl hcall

/-- A run with registers comes from one without, and leaves the registers as they were. -/
theorem ends_of_scoped {options : Options} {p : Plan α} {s : Scope} {r : Result Cause Scope α}
    (h : Scoped options p s r) : ∀ {stage : Stage}, c = ⟨options, s.identity⟩ →
      Plan.Made c s.depth stage p → ∃ r', Ends c p s.machine r' ∧ r = s.after r' := by
  induction h with
  | done a s =>
    intro stage hc hp
    exact ⟨_, .done a s.machine, rfl⟩
  | act hstep _ ih =>
    intro stage hc hp
    obtain ⟨stage', hnext⟩ := hp.act_next hstep
    obtain ⟨r', hends, rfl⟩ := ih hc hnext
    exact ⟨r', .act hstep hends, rfl⟩
  | actFails hstep =>
    intro stage hc hp
    exact ⟨_, .actFails hstep, rfl⟩
  | @call _ depth frame task next s t inner v r hinner _ _ ihcall ihnext =>
    intro stage hc hp
    subst hinner
    obtain ⟨stage', hnext⟩ := hp.call_next v
    obtain rfl : depth = (s.enter frame task).depth := hp.call_depth
    subst hc
    obtain ⟨r', hcall, hr'⟩ := ihcall rfl (made_plan _ _ task)
    cases r' with
    | error cause m => cases hr'
    | ok v' m =>
      obtain ⟨rfl, rfl⟩ := Result.ok.inj hr'
      rw [s.leave_enter] at ihnext
      obtain ⟨r'', hends, rfl⟩ := ihnext rfl hnext
      exact ⟨r'', .call hcall hends, rfl⟩
  | @callFails _ depth frame task next s t inner cause hinner _ ihcall =>
    intro stage hc hp
    subst hinner
    obtain rfl : depth = (s.enter frame task).depth := hp.call_depth
    subst hc
    obtain ⟨r', hcall, hr'⟩ := ihcall rfl (made_plan _ _ task)
    cases r' with
    | ok v m => cases hr'
    | error cause' m =>
      obtain ⟨rfl, rfl⟩ := Result.error.inj hr'
      rw [s.leave_enter]
      exact ⟨_, .callFails hcall, rfl⟩

/-- With registers, a plan that is carried out ends in what the step yields, and nowhere else. -/
theorem scoped_iff {s : Scope} {options : Options} {p : Plan α} {step : Run α} {stage : Stage}
    (hp : Plan.Made ⟨options, s.identity⟩ s.depth stage p)
    (hstep : Plan.CarriedOut ⟨options, s.identity⟩ p step) (r : Result Cause Scope α) :
    Scoped options p s r ↔ r = s.after (step s.machine) := by
  constructor
  · intro h
    obtain ⟨r', hends, rfl⟩ := ends_of_scoped h rfl hp
    rw [hends.unique (hstep s.machine)]
  · rintro rfl
    exact scoped_of_ends (hstep s.machine) rfl rfl hp

/-! ## Nodes -/

/-- How bodies of functions run when the calls are nested so deep already. -/
def deeperAt (c : Context) (depth : Nat) : Run.Deeper :=
  Run.deeper c (c.options.limits.maxCallDepth.toNat - depth)

theorem serves_deeperAt (c : Context) (depth : Nat) : Serves c depth (deeperAt c depth) :=
  serves_deeper rfl

section Nodes

variable (c : Context) (depth : Nat) (m : Machine)

theorem outer_evaluate (node : Node) :
    (Run.left (Run.evaluate c (deeperAt c depth) node m)).outer = m.outer :=
  (carriedOut_evaluate (serves_deeperAt c depth) node).outer_eq (made_plan c depth _) m

theorem outer_block (body : List Node) :
    (Run.left (Run.block c (deeperAt c depth) .undefined body m)).outer = m.outer :=
  (carriedOut_statements (serves_deeperAt c depth) .undefined body).outer_eq
    (made_plan c depth (.block body)) m

/-- What runs in a frame of its own leaves all others as they were, however it ends. -/
theorem frames_inFrame {step : Run α} {frame : Bindings}
    (h : (Run.left (step (m.push frame))).outer = m.frames) :
    (Run.left (Run.inFrame frame step m)).frames = m.frames := by
  unfold Run.inFrame
  cases hr : step (m.push frame) with
  | ok a n =>
    rw [hr] at h
    exact Machine.frames_pop h
  | error cause n =>
    rw [hr] at h
    exact Machine.frames_pop h

theorem frames_whileLoop (test : Node) (body : List Node) :
    (Run.left (Run.evaluate c (deeperAt c depth) (.whileLoop test body) m)).frames = m.frames := by
  have hd := serves_deeperAt c depth
  have hturns := carriedOut_whileTurn (carriedOut_evaluate hd test)
    (carriedOut_statements hd .undefined body) .undefined (Nat.sub_zero _)
  rw [Run.evaluate]
  exact frames_inFrame m (hturns.outer_eq (made_plan c depth _) _)

theorem frames_doWhile (body : List Node) (test : Node) :
    (Run.left (Run.evaluate c (deeperAt c depth) (.doWhile body test) m)).frames = m.frames := by
  have hd := serves_deeperAt c depth
  have hturns := carriedOut_doWhileTurn (carriedOut_evaluate hd test)
    (carriedOut_statements hd .undefined body) (Nat.sub_zero _)
  rw [Run.evaluate]
  exact frames_inFrame m (hturns.outer_eq (made_plan c depth _) _)

/-- Whether a call comes to evaluate its arguments: the name refers to a function that takes so many,
and a level of calls is left. -/
def admitsCall (name : String) (tier : Option Tier) (argCount : Nat) : Bool :=
  match Run.callee c m name tier with
  | .function f => argCount == f.arity && depth < c.options.limits.maxCallDepth.toNat
  | _ => false

/-- The body of a function runs in a frame of its own, which is closed again: what is left are the
frames that the arguments leave. -/
theorem frames_callFunction (name : String) {f : Function} (args : List Node)
    (harity : args.length = f.arity) (hspare : depth < c.options.limits.maxCallDepth.toNat) :
    (Run.left (Run.callFunction c (deeperAt c depth) name f args.length
      (Run.operands c (deeperAt c depth) args) m)).frames =
      (Run.left (Run.operands c (deeperAt c depth) args m)).frames := by
  have hdeeper : deeperAt c depth =
      some (Run.block c (deeperAt c (depth + 1)) .undefined) := by
    have hlevels : c.options.limits.maxCallDepth.toNat - depth =
        c.options.limits.maxCallDepth.toNat - (depth + 1) + 1 := by omega
    rw [deeperAt, hlevels]
    rfl
  unfold Run.callFunction
  simp only [harity, ne_eq, not_true_eq_false, if_false]
  generalize Run.operands c (deeperAt c depth) args = values
  rw [hdeeper]
  dsimp only [bind, EStateM.bind]
  cases values m with
  | ok vs n => exact frames_inFrame n (outer_block c (depth + 1) _ f.body)
  | error cause n => rfl

theorem frames_call (name : String) (tier : Option Tier) (args : List Node) :
    (Run.left (Run.evaluate c (deeperAt c depth) (.call name tier args) m)).frames =
      if admitsCall c depth m name tier args.length then
        (Run.left (Run.operands c (deeperAt c depth) args m)).frames
      else m.frames := by
  rw [Run.evaluate]
  unfold admitsCall Run.call
  dsimp only [bind, EStateM.bind, get, getThe, MonadStateOf.get, EStateM.get]
  cases Run.callee c m name tier with
  | function f =>
    by_cases harity : args.length = f.arity
    · rcases Nat.lt_or_ge depth c.options.limits.maxCallDepth.toNat with hspare | hspent
      · simp only [beq_iff_eq.mpr harity, decide_eq_true hspare, Bool.and_self, if_true]
        exact frames_callFunction c depth m name args harity hspare
      · have hdeeper : deeperAt c depth = none := by
          rw [deeperAt, Nat.sub_eq_zero_of_le hspent]
          rfl
        unfold Run.callFunction
        simp only [harity, hdeeper, Nat.not_lt.mpr hspent, ne_eq, not_true_eq_false, if_false,
          decide_false, Bool.and_false, Bool.false_eq_true]
        rfl
    · unfold Run.callFunction
      simp only [harity, ne_eq, not_false_eq_true, if_true, beq_eq_false_iff_ne.mpr harity,
        Bool.false_and, Bool.false_eq_true, if_false]
      rfl
  | _ => rfl

end Nodes

/-- Scopes are left as they were found: with any options, by anyone, at any depth of calls and from any
state, the evaluation of a node ends with registers in the result that it has without, and in no other.
It leaves the identity, the depth of calls, the number of frames and the frames below the innermost one
as they were; a loop leaves the innermost frame, too, and a call the frames that its arguments leave. So
nothing that runs in a frame of its own touches another. -/
theorem evaluate_keeps_scope (options : Options) (s : Scope) (node : Node) :
    let c : Context := ⟨options, s.identity⟩
    let run := Run.evaluate c (deeperAt c s.depth)
    let m := s.machine
    (∀ r, Scoped options (plan c s.depth (.evaluate node)) s r ↔ r = s.after (run node m)) ∧
    ((Scope.left (s.after (run node m))).identity = s.identity ∧
      (Scope.left (s.after (run node m))).depth = s.depth ∧
      (Run.left (run node m)).frames.length = m.frames.length ∧
      (Run.left (run node m)).outer = m.outer) ∧
    (∀ test body,
      (Run.left (run (.whileLoop test body) m)).frames = m.frames ∧
      (Run.left (run (.doWhile body test) m)).frames = m.frames) ∧
    (∀ name tier args,
      (Run.left (run (.call name tier args) m)).frames =
        if admitsCall c s.depth m name tier args.length then
          (Run.left (Run.operands c (deeperAt c s.depth) args m)).frames
        else m.frames) ∧
    ∀ depth frame body test,
      (Run.left (Run.block c (deeperAt c depth) .undefined body (m.push frame))).outer = m.frames ∧
      (Run.left (Run.condition test (Run.evaluate c (deeperAt c depth) test)
        (m.push frame))).outer = m.frames := by
  intro c run m
  refine ⟨?_, ?_, ?_, ?_, ?_⟩
  · exact scoped_iff (made_plan c s.depth _) (carriedOut_evaluate (serves_deeperAt c s.depth) node)
  · have houter := outer_evaluate c s.depth m node
    rw [Scope.left_after]
    refine ⟨rfl, rfl, ?_, houter⟩
    exact congrArg (·.length + 1) houter
  · intro test body
    exact ⟨frames_whileLoop c s.depth m test body, frames_doWhile c s.depth m body test⟩
  · exact frames_call c s.depth m
  · intro depth frame body test
    refine ⟨outer_block c depth _ body, ?_⟩
    have htest := carriedOut_evaluate (serves_deeperAt c depth) test
    have hplan : Plan.Made c depth .plain (Plan.condition depth test) :=
      Plan.made_condition test rfl fun b => .done b rfl
    exact htest.condition.outer_eq hplan _

end Recursion

end DiceScript
