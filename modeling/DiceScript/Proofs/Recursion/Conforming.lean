import DiceScript.Proofs.Recursion.History
import Mathlib.Data.List.Chain

/-!
# What holds along a history

An invariant holds at every point of a run, not only at its end, and where the stores of a run stay in
some relation to every store that the run started from, any two stores of its history are in that
relation: each point of a run can be taken for a start. To say so of plans, each step of a plan and each
call in it has to be looked at once; this is done here for all invariants.

It is also said here which steps can fail as a definition does: definitions only.

- `Run.Undefining` — steps that do not fail as a definition does.
- `Run.Relates` — an invariant, and a relation between earlier and later stores.
- `Plan.Conforms`, `conforms_plan` — plans whose steps and calls comply with both.
- `History.conforms` — what holds along the history of such a plan.
- `History.exists_define` — a run that fails as a definition does comes to a definition that fails.
-/

namespace DiceScript

/-! ## Steps that define nothing -/

namespace Operator

/-- A result, or a cause that is not that of a definition. -/
def Undefining {α : Type} (result : Except Cause α) : Prop :=
  ∀ cause, result = .error cause → cause.kind ≠ .definitionError

@[simp] theorem undefining_ok {α : Type} (a : α) : Undefining (.ok a : Except Cause α) := by
  intro cause h
  cases h

@[simp] theorem undefining_error {α : Type} {cause : Cause} :
    Undefining (.error cause : Except Cause α) ↔ cause.kind ≠ .definitionError := by
  simp [Undefining]

theorem undefining_powerSteps (limit : UInt64) (base : Int64) (exponent : Nat) :
    ∀ room product, Undefining (powerSteps limit base exponent room product) := by
  induction exponent with
  | zero => simp [powerSteps]
  | succ exponent ih =>
    intro room product
    cases room with
    | zero => simp [powerSteps, Cause.kind, Guarded.kind]
    | succ room =>
      rw [powerSteps]
      split
      · exact ih room _
      · simp [Cause.kind]

theorem undefining_binary (limits : Limits) (op : BinaryOp) (l r : Value) :
    Undefining (binary limits op l r) := by
  have hsteps (base : Int64) (exponent room : Nat) (product : Int64) :
      Undefining ((powerSteps limits.maxExponentSteps base exponent room product).map
        Value.integer) := by
    have h := undefining_powerSteps limits.maxExponentSteps base exponent room product
    cases hr : powerSteps limits.maxExponentSteps base exponent room product with
    | ok n => exact undefining_ok _
    | error cause => exact undefining_error.mpr (h cause hr)
  unfold binary
  cases op <;>
    simp only [logical, equality, ordering, shift, arithmetic, divide, floorDivide, remainder,
      concat, power, floatPower, logarithm, exact, finite, refuse]
  all_goals repeat' split
  all_goals first | exact hsteps _ _ _ _ | simp [Cause.kind, Guarded.kind]

theorem undefining_unary (op : UnaryOp) (v : Value) : Undefining (unary op v) := by
  unfold unary
  repeat' split
  all_goals simp [Cause.kind]

end Operator

namespace Run

def Undefining {α : Type} (step : Run α) : Prop :=
  ∀ m cause n, step m = .error cause n → cause.kind ≠ .definitionError

namespace Undefining

variable {α β : Type}

theorem pure (a : α) : Undefining (Pure.pure a : Run α) := by
  intro m cause n h
  cases h

theorem get : Undefining (MonadState.get : Run Machine) := by
  intro m cause n h
  cases h

theorem modify (f : Machine → Machine) : Undefining (modify f : Run PUnit) := by
  intro m cause n h
  cases h

theorem throw {cause : Cause} (hcause : cause.kind ≠ .definitionError) :
    Undefining (throw cause : Run α) := by
  intro m cause' n h
  cases h
  exact hcause

theorem ofExcept {r : Except Cause α} (h : Operator.Undefining r) : Undefining (Run.ofExcept r) := by
  cases r with
  | ok a => exact pure a
  | error cause => exact throw (Operator.undefining_error.mp h)

theorem bind {step : Run α} {next : α → Run β} (h : Undefining step)
    (hnext : ∀ a, Undefining (next a)) : Undefining (step >>= next) := by
  intro m cause n hbind
  change EStateM.bind step next m = _ at hbind
  unfold EStateM.bind at hbind
  cases hr : step m with
  | ok a m' =>
    rw [hr] at hbind
    exact hnext a m' cause n hbind
  | error cause' m' =>
    rw [hr] at hbind
    cases hbind
    exact h m _ _ hr

theorem operand (node : Node) (v : Value) : Undefining (Run.operand node (Pure.pure v)) := by
  refine bind (pure v) fun v => ?_
  split
  · split <;> exact throw (by simp [Cause.kind])
  · exact pure v

theorem condition (node : Node) (v : Value) : Undefining (Run.condition node (Pure.pure v)) := by
  refine bind (operand node v) fun v => ?_
  split
  · exact pure _
  · exact throw (by simp [Cause.kind])

theorem dieParameter (which : DieParameter) (node : Node) (v : Value) :
    Undefining (Run.dieParameter which node (Pure.pure v)) := by
  refine bind (operand node v) fun v => ?_
  split
  · exact pure _
  · exact throw (by simp [Cause.kind])

theorem chargeLoop (limit : UInt64) {what : Guarded} (h : what.kind ≠ .definitionError) :
    Undefining (Run.chargeLoop limit what) := by
  refine bind (modify _) fun _ => bind get fun m => ?_
  split
  · exact throw h
  · exact pure _

theorem drawFaces (limit : UInt64) (sides count : Nat) : ∀ room drawn,
    Undefining (Run.drawFaces limit sides count room drawn) := by
  induction count with
  | zero => exact fun _ _ => pure _
  | succ count ih =>
    intro room drawn
    cases room with
    | zero => exact throw (by simp [Cause.kind, Guarded.kind])
    | succ room =>
      refine bind (fun m cause n h => ?_) fun face => ih room (face :: drawn)
      rw [Run.run_drawFace] at h
      cases h

theorem rollValue (count sides : Int64) (form : DieForm) (faces : List Nat) :
    Undefining (Run.rollValue count sides form faces) := by
  cases form with
  | scalar =>
    rw [Run.rollValue]
    cases Run.addFaces? 0 faces with
    | none => exact throw (by simp [Cause.kind])
    | some total => exact bind (modify _) fun _ => pure _
  | vector => exact bind (modify _) fun _ => pure _

theorem roll (limit : UInt64) (count sides : Int64) (form : DieForm) :
    Undefining (Run.roll limit count sides form) := by
  unfold Run.roll
  split
  · exact throw (by simp [Cause.kind])
  · split
    · exact throw (by simp [Cause.kind])
    · exact bind (drawFaces _ _ _ _ _) fun faces => rollValue count sides form faces

theorem writable (tier : Tier) (name : String) : Undefining (Run.writable tier name) := by
  unfold Run.writable
  split
  · exact throw (by simp [Cause.kind])
  · exact pure _

theorem putQualified (c : Context) (tier : Tier) (name : String) (v : Value) :
    Undefining (Run.putQualified c tier name v) := by
  refine bind get fun m => bind (ofExcept ?_) fun s => modify _
  unfold Store.put
  split <;> simp [Cause.kind]

theorem dropQualified (c : Context) (tier : Tier) (name : String) :
    Undefining (Run.dropQualified c tier name) := by
  refine bind (writable tier name) fun _ => bind get fun m => bind (ofExcept ?_) fun p =>
    bind (modify _) fun _ => pure _
  unfold Store.drop
  repeat' split
  all_goals simp [Cause.kind]

end Undefining

end Run

/-! ## Steps of a run -/

/-- An invariant of runs, whatever store they start from, together with a relation between stores: a
run leads from a store to later ones. -/
structure Run.Relates (c : Context) (I : Machine → Prop) (R : Store → Store → Prop)
    (V : Value → Prop) (N : Node → Prop) : Prop where
  refl : ∀ s, R s s
  invariant : ∀ s, Run.Invariant c (fun m => I m ∧ R s m.store) V N

namespace Recursion

open Run (Keeps)
open Run.Invariant (Stored)

variable {c : Context} {I : Machine → Prop} {R : Store → Store → Prop} {V : Value → Prop}
  {N : Node → Prop} {α β : Type}

inductive Defining (c : Context) : {β : Type} → Run β → Prop where
  | define (f : Function) : Defining c (Run.define c f)

/-- What a step of a plan may do: it keeps the invariant, it leads to a later store, and it fails as a
definition does only if it is one. -/
structure Allowed (c : Context) (I : Machine → Prop) (R : Store → Store → Prop) (U : β → Prop)
    (step : Run β) : Prop where
  keeps : ∀ m, I m → Run.Ends (fun n => I n ∧ R m.store n.store) U (step m)
  defining : step.Undefining ∨ Defining c step

def Task.Admitted (V : Value → Prop) (N : Node → Prop) : Task → Prop
  | .evaluate node => N node
  | .block body => ∀ n ∈ body, N n
  | .whileTurn _ last test body => V last ∧ N test ∧ ∀ n ∈ body, N n
  | .doWhileTurn _ body test => N test ∧ ∀ n ∈ body, N n

/-- Plans whose steps are allowed and whose calls are of admitted tasks, and which yield values with
`W`. -/
inductive Plan.Conforms (c : Context) (I : Machine → Prop) (R : Store → Store → Prop)
    (V : Value → Prop) (N : Node → Prop) : {α : Type} → (α → Prop) → Plan α → Prop where
  | done {α : Type} {W : α → Prop} {a : α} : W a → Conforms c I R V N W (.done a)
  | act {α β : Type} {W : α → Prop} {U : β → Prop} {step : Run β} {next : β → Plan α} :
      Allowed c I R U step → (∀ b, U b → Conforms c I R V N W (next b)) →
        Conforms c I R V N W (.act step next)
  | call {α : Type} {W : α → Prop} {depth : Nat} {frame : Option Bindings} {task : Task}
      {next : Value → Plan α} :
      (∀ m, I m → I (enter m frame)) → task.Admitted V N →
        (∀ v, V v → Conforms c I R V N W (next v)) →
          Conforms c I R V N W (.call depth frame task next)

/-! ### Steps -/

namespace Allowed

variable {U : β → Prop} {step : Run β}

/-- A step that keeps a relation to every store leads to later stores. -/
theorem of_keeps (hrefl : ∀ s, R s s) (hkeeps : ∀ s, Keeps (fun m => I m ∧ R s m.store) U step)
    (hdefining : step.Undefining ∨ Defining c step) : Allowed c I R U step :=
  ⟨fun m hm => hkeeps m.store m ⟨hm, hrefl m.store⟩, hdefining⟩

theorem undefining (hrefl : ∀ s, R s s)
    (hkeeps : ∀ s, Keeps (fun m => I m ∧ R s m.store) U step) (h : step.Undefining) :
    Allowed c I R U step :=
  of_keeps hrefl hkeeps (.inl h)

end Allowed

/-! ### Plans -/

namespace Plan

theorem Conforms.bind {W : α → Prop} {W' : β → Prop} {p : Plan α} {f : α → Plan β}
    (h : Conforms c I R V N W p) (hf : ∀ a, W a → Conforms c I R V N W' (f a)) :
    Conforms c I R V N W' (p >>= f) := by
  show Conforms c I R V N W' (p.bind f)
  induction h with
  | done ha => exact hf _ ha
  | act hstep _ ih => exact .act hstep fun b hb => ih b hb hf
  | call henter htask _ ih => exact .call henter htask fun v hv => ih v hv hf

theorem Conforms.step {U : β → Prop} {s : Run β} (h : Allowed c I R U s) :
    Conforms c I R V N U (Plan.step s) :=
  .act h fun _ hb => .done hb

theorem conforms_invoke {depth : Nat} {task : Task} (h : task.Admitted V N) :
    Conforms c I R V N V (invoke depth task) :=
  .call (fun _ hm => hm) h fun _ hv => .done hv

theorem conforms_statements {depth : Nat} {body : List Node} (hn : ∀ n ∈ body, N n) :
    ∀ {last : Value}, V last → Conforms c I R V N V (statements depth last body) := by
  induction body with
  | nil => exact fun hlast => .done hlast
  | cons node rest ih =>
    obtain ⟨hnode, hrest⟩ := List.forall_mem_cons.mp hn
    exact fun _ => .bind (conforms_invoke hnode) fun v hv => ih hrest hv

section Tasks

variable (h : Run.Relates c I R V N) {depth : Nat}

include h

theorem conforms_fail {W : α → Prop} {cause : Cause} (hcause : cause.kind ≠ .definitionError) :
    Conforms c I R V N W (fail cause : Plan α) :=
  .step (.undefining h.refl (fun _ => .throw cause) (.throw hcause))

theorem conforms_operand {node : Node} (hn : N node) :
    Conforms c I R V N (Stored V) (operand depth node) :=
  .bind (conforms_invoke hn) fun _ hv =>
    .step (.undefining h.refl (fun _ => .operand (.pure hv)) (.operand _ _))

theorem conforms_condition {node : Node} (hn : N node) :
    Conforms c I R V N (fun _ => True) (condition depth node) :=
  .bind (conforms_invoke hn) fun _ hv =>
    .step (.undefining h.refl (fun _ => .condition (.pure hv)) (.condition _ _))

theorem conforms_dieParameter {which : DieParameter} {node : Node} (hn : N node) :
    Conforms c I R V N (fun _ => True) (dieParameter depth which node) :=
  .bind (conforms_invoke hn) fun _ hv =>
    .step (.undefining h.refl (fun _ => .dieParameter (.pure hv)) (.dieParameter _ _ _))

theorem conforms_operands {nodes : List Node} (hn : ∀ n ∈ nodes, N n) :
    Conforms c I R V N (fun values => ∀ v ∈ values, Stored V v) (operands depth nodes) := by
  induction nodes with
  | nil => exact .done (by simp)
  | cons node rest ih =>
    obtain ⟨hnode, hrest⟩ := List.forall_mem_cons.mp hn
    refine .bind (conforms_operand h hnode) fun v hv => .bind (ih hrest) fun vs hvs => .done ?_
    exact List.forall_mem_cons.mpr ⟨hv, hvs⟩

theorem conforms_dieCount {count : Option Node} (hn : ∀ n ∈ count, N n) :
    Conforms c I R V N (fun _ => True) (dieCount depth count) := by
  cases count with
  | none => exact .done trivial
  | some node => exact conforms_dieParameter h (hn node rfl)

/-- A call in a frame of its own, which binds what may be stored only. -/
theorem conforms_invokeIn {frame : Bindings} {task : Task}
    (hframe : ∀ name v, frame.get? name = some v → Stored V v) (ht : task.Admitted V N) :
    Conforms c I R V N V (invokeIn frame depth task) :=
  .call (fun m hm => ((h.invariant m.store).push ⟨hm, h.refl m.store⟩ hframe).1) ht
    fun _ hv => .done hv

theorem conforms_callFunction (name : String) {args : List Node} {v : Value}
    (hargs : ∀ n ∈ args, N n) (hv : V v) :
    Conforms c I R V N V (callFunction c depth name args v) := by
  unfold callFunction
  split
  · rename_i f
    split
    · exact conforms_fail h (by simp [Cause.kind])
    · split
      · exact conforms_fail h (by simp [Cause.kind])
      · refine .bind (conforms_operands h hargs) fun values hvalues => ?_
        exact conforms_invokeIn h (Run.Invariant.stored_of_get?_frame hvalues)
          ((h.invariant default).body hv)
  · exact conforms_fail h (by simp [Cause.kind])
  · exact conforms_fail h (by simp [Cause.kind])

theorem conforms_evaluate {node : Node} (hn : N node) :
    Conforms c I R V N V (evaluate c depth node) := by
  have hparts := (h.invariant default).parts hn
  cases node with
  | integer n => exact .done ((h.invariant default).integer n)
  | float x => exact .done ((h.invariant default).float hn)
  | string s => exact .done ((h.invariant default).string s)
  | boolean b => exact .done ((h.invariant default).boolean b)
  | list items =>
    exact .bind (conforms_operands h hparts) fun vs hvs => .done ((h.invariant default).list hvs)
  | identifier name =>
    refine .step (.undefining h.refl (fun s => ?_) (.bind .get fun _ => .pure _))
    exact .bind .get fun m hm => .pure ((h.invariant s).lookup hm name)
  | qualifiedIdentifier tier name =>
    refine .step (.undefining h.refl (fun s => ?_) (.bind .get fun _ => .pure _))
    exact .bind .get fun m hm => .pure ((h.invariant s).tier tier name hm)
  | group inner => exact conforms_invoke (hparts inner (by simp [Node.parts]))
  | binary op left right =>
    refine .bind (conforms_operand h (hparts left (by simp [Node.parts]))) fun l hl => ?_
    refine .bind (conforms_operand h (hparts right (by simp [Node.parts]))) fun r hr => ?_
    refine .step (.undefining h.refl (fun s => .ofExcept fun v hv => ?_)
      (.ofExcept (Operator.undefining_binary _ _ _ _)))
    exact (h.invariant s).binary hl.1 hr.1 hl.2 hr.2 hv
  | unary op node =>
    refine .bind (conforms_operand h (hparts node (by simp [Node.parts]))) fun u hu => ?_
    refine .step (.undefining h.refl (fun s => .ofExcept fun v hv => ?_)
      (.ofExcept (Operator.undefining_unary _ _)))
    exact (h.invariant s).unary hu.1 hu.2 hv
  | dice count sides form =>
    have hcount : ∀ n ∈ count, N n := fun n hnode =>
      hparts n (by simpa [Node.parts] using Or.inl hnode)
    refine .bind (conforms_dieCount h hcount) fun n _ => ?_
    refine .bind (conforms_dieParameter h (hparts sides (by simp [Node.parts]))) fun m _ => ?_
    refine .step (.undefining h.refl (fun s => ?_) (.roll _ _ _ _))
    have hs := h.invariant s
    refine Keeps.roll (fun m action hm => hs.record hm action) hs.draw hs.integer fun faces => ?_
    refine hs.list fun v hv => ?_
    obtain ⟨n, -, rfl⟩ := List.mem_map.mp hv
    exact ⟨hs.integer n, rfl⟩
  | block body => exact conforms_invoke hparts
  | assign name node =>
    refine .bind (conforms_operand h (hparts node (by simp [Node.parts]))) fun v hv => ?_
    refine .step (.undefining h.refl (fun s => ?_) (.bind (.modify _) fun _ => .pure _))
    exact .bind (.modify fun m hm => (h.invariant s).bind hm hv.1 hv.2) fun _ _ => .pure hv.1
  | qualifiedAssign tier name node =>
    refine .bind (.step (.undefining h.refl (fun s => Run.Invariant.keeps_writable tier name)
      (.writable tier name))) fun _ _ => ?_
    refine .bind (conforms_operand h (hparts node (by simp [Node.parts]))) fun v hv => ?_
    refine .step (.undefining h.refl (fun s => ?_) (.bind (.putQualified c _ _ _) fun _ => .pure _))
    exact .bind ((h.invariant s).keeps_assign hn hv) fun _ _ => .pure hv.1
  | delete tier name =>
    cases tier with
    | none =>
      exact .step (.undefining h.refl (fun s => (h.invariant s).keeps_unbindLocal name)
        (.bind .get fun _ => .bind (.modify _) fun _ => .pure _))
    | some tier =>
      exact .step (.undefining h.refl (fun s => (h.invariant s).keeps_dropQualified hn)
        (.dropQualified c tier name))
  | print node =>
    refine .bind (conforms_operand h (hparts node (by simp [Node.parts]))) fun v hv => ?_
    refine .step (.undefining h.refl (fun s => ?_) (.bind (.modify _) fun _ => .pure _))
    exact .bind (.modify fun m hm => (h.invariant s).record hm _) fun _ _ => .pure hv.1
  | branch test consequent alternative =>
    refine .bind (conforms_condition h (hparts test (by simp [Node.parts]))) fun b _ => ?_
    split
    · exact conforms_invoke fun k hk => hparts k (by simp [Node.parts, hk])
    · exact conforms_invoke fun k hk => hparts k (by simp [Node.parts, hk])
  | whileLoop test body =>
    exact conforms_invokeIn h (by simp) ⟨(h.invariant default).undefined,
      hparts test (by simp [Node.parts]), fun k hk => hparts k (by simp [Node.parts, hk])⟩
  | doWhile body test =>
    exact conforms_invokeIn h (by simp)
      ⟨hparts test (by simp [Node.parts]), fun k hk => hparts k (by simp [Node.parts, hk])⟩
  | define name params body tier =>
    refine .step (.of_keeps h.refl (fun s => ?_) (.inr (.define _)))
    exact (h.invariant s).keeps_define fun hp => (h.invariant s).function hn hp
  | call name tier args =>
    refine .bind (.step (.undefining h.refl (fun s => ?_) (.bind .get fun _ => .pure _))) fun v hv =>
      conforms_callFunction h name hparts hv
    exact .bind .get fun m hm => .pure ((h.invariant s).callee hm name tier)

theorem conforms_charge {what : Guarded} (limit : UInt64) (hwhat : what.kind ≠ .definitionError) :
    Conforms c I R V N (fun _ => True) (Plan.step (Run.chargeLoop limit what)) :=
  .step (.undefining h.refl (fun s => .chargeLoop (h.invariant s).count) (.chargeLoop limit hwhat))

/-- The plan of an admitted task conforms. -/
theorem conforms_plan {task : Task} (ht : task.Admitted V N) :
    Conforms c I R V N V (plan c depth task) := by
  cases task with
  | evaluate node => exact conforms_evaluate h ht
  | block body => exact conforms_statements ht (h.invariant default).undefined
  | whileTurn taken last test body =>
    obtain ⟨hlast, htest, hbody⟩ := ht
    refine .bind (conforms_condition h htest) fun b _ => ?_
    split
    · split
      · exact conforms_fail h (by simp [Cause.kind, Guarded.kind])
      · refine .bind (conforms_charge h _ (by simp [Guarded.kind])) fun _ _ => ?_
        exact .bind (conforms_invoke hbody) fun v hv => conforms_invoke ⟨hv, htest, hbody⟩
    · exact .done hlast
  | doWhileTurn taken body test =>
    obtain ⟨htest, hbody⟩ := ht
    rw [plan]
    split
    · exact conforms_fail h (by simp [Cause.kind, Guarded.kind])
    · refine .bind (conforms_charge h _ (by simp [Guarded.kind])) fun _ _ => ?_
      refine .bind (conforms_invoke hbody) fun v hv => .bind (conforms_condition h htest) fun b _ => ?_
      split
      · exact conforms_invoke ⟨htest, hbody⟩
      · exact .done hv

end Tasks

end Plan

/-! ## Along a history -/

theorem isChain_append {a : Store} {l l' : List Store} (h : (a :: l).IsChain R)
    (h' : (l.getLastD a :: l').IsChain R) : (a :: (l ++ l')).IsChain R := by
  induction l generalizing a with
  | nil => exact h'
  | cons b rest ih =>
    obtain ⟨hab, hrest⟩ := List.isChain_cons_cons.mp h
    exact List.isChain_cons_cons.mpr ⟨hab, ih hrest (by rwa [List.getLastD_cons] at h')⟩

section Along

variable (h : Run.Relates c I R V N) {p : Plan α} {W : α → Prop} {m : Machine} {stores : List Store}

include h

theorem keeps_leave {frame : Option Bindings} (hm : I m) : I (leave m frame) := by
  cases frame with
  | none => exact hm
  | some frame => exact ((h.invariant m.store).pop ⟨hm, h.refl m.store⟩).1

/-- The invariant holds where a plan ends, and each store on the way is later than the one before. -/
theorem History.conforms {r : EStateM.Result Cause Machine α} (hhistory : History c p m r stores)
    (hp : p.Conforms c I R V N W) (hm : I m) :
    Run.Ends I W r ∧ (m.store :: stores).IsChain R := by
  induction hhistory with
  | done a m =>
    cases hp with
    | done ha => exact ⟨⟨hm, ha⟩, .singleton _⟩
  | @act _ _ step next m m' b r stores hstep _ ih =>
    cases hp with
    | act hallowed hnext =>
      have hkeeps := hallowed.keeps m hm
      rw [hstep] at hkeeps
      obtain ⟨⟨hm', hlater⟩, hb⟩ := hkeeps
      obtain ⟨hends, hchain⟩ := ih (hnext b hb) hm'
      exact ⟨hends, .cons_cons hlater hchain⟩
  | @actFails _ _ step next m m' cause hstep =>
    cases hp with
    | act hallowed _ =>
      have hkeeps := hallowed.keeps m hm
      rw [hstep] at hkeeps
      exact ⟨hkeeps.1, .cons_cons hkeeps.2 (.singleton _)⟩
  | call hcall _ ihcall ihnext =>
    cases hp with
    | call henter htask hnext =>
      obtain ⟨⟨hm', hv⟩, hinner⟩ := ihcall (Plan.conforms_plan h htask) (henter _ hm)
      obtain ⟨hends, hchain⟩ := ihnext (hnext _ hv) (keeps_leave h hm')
      have hlast := hcall.left_store
      rw [Run.left_ok, enter_store] at hlast
      rw [enter_store] at hinner
      rw [leave_store, hlast] at hchain
      exact ⟨hends, isChain_append hinner hchain⟩
  | callFails _ ihcall =>
    cases hp with
    | call henter htask _ =>
      obtain ⟨hm', hinner⟩ := ihcall (Plan.conforms_plan h htask) (henter _ hm)
      rw [enter_store] at hinner
      exact ⟨keeps_leave h hm', hinner⟩

/-- Every step that a plan comes to is an allowed one, in a state in which the invariant holds. -/
theorem ComesTo.conforms {step : Run β} {n : Machine} (hcomes : ComesTo c step n p m stores)
    (hp : p.Conforms c I R V N W) (hm : I m) :
    I n ∧ ∃ U : β → Prop, Allowed c I R U step := by
  induction hcomes with
  | here =>
    cases hp with
    | act hallowed _ => exact ⟨hm, _, hallowed⟩
  | @afterAct _ _ first next m m' b stores hfirst _ ih =>
    cases hp with
    | act hallowed hnext =>
      have hkeeps := hallowed.keeps m hm
      rw [hfirst] at hkeeps
      exact ih (hnext b hkeeps.2) hkeeps.1.1
  | inCall _ ih =>
    cases hp with
    | call henter htask _ => exact ih (Plan.conforms_plan h htask) (henter _ hm)
  | afterCall hcall _ ih =>
    cases hp with
    | call henter htask hnext =>
      obtain ⟨⟨hm', hv⟩, -⟩ := hcall.conforms h (Plan.conforms_plan h htask) (henter _ hm)
      exact ih (hnext _ hv) (keeps_leave h hm')

/-- A plan that fails as a definition does has come to a definition that failed. -/
theorem History.exists_define {cause : Cause} {m' : Machine}
    (hhistory : History c p m (.error cause m') stores) (hcause : cause.kind = .definitionError)
    (hp : p.Conforms c I R V N W) (hm : I m) :
    ∃ f n n' before, ComesTo c (Run.define c f) n p m before ∧
      Run.define c f n = .error cause n' ∧ stores = before ++ [n'.store] := by
  obtain ⟨β, step, n, n', before, hcomes, hstep, hstores⟩ := hhistory.exists_comesTo
  obtain ⟨-, U, hallowed⟩ := hcomes.conforms h hp hm
  rcases hallowed.defining with hundefining | hdefining
  · exact absurd hcause (hundefining n cause n' hstep)
  · cases hdefining with
    | define f => exact ⟨f, n, n', before, hcomes, hstep, hstores⟩

end Along

end Recursion

end DiceScript
