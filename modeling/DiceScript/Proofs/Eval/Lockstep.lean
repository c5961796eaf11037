import DiceScript.Eval.Node
import DiceScript.Proofs.Store.Namespaces

/-!
# Two runs in lockstep

A relation between machines under which two runs of one program cannot be told apart: started in
related states, they take the same branches, yield the same value or fail for the same cause, and end
in related states. `Indistinct` lists what has to be shown of the relation; `lockstep_program`
concludes from it, by recursion on programs, that whole runs go in lockstep.

- `Matching` — two results that agree.
- `Lockstep` — a step that ends in matching results, with one rule per way of making a step.
- `Indistinct` — what makes a relation one that no step sees through.
-/

namespace DiceScript.Run

variable {R : Machine → Machine → Prop} {α β : Type}

/-- Two results that agree in everything but related states. -/
def Matching (R : Machine → Machine → Prop) :
    EStateM.Result Cause Machine α → EStateM.Result Cause Machine α → Prop
  | .ok a m, .ok b n => a = b ∧ R m n
  | .error a m, .error b n => a = b ∧ R m n
  | _, _ => False

/-- A step that ends in matching results when it starts in related states. -/
def Lockstep (R : Machine → Machine → Prop) (step : Run α) : Prop :=
  ∀ m n, R m n → Matching R (step m) (step n)

/-- Two steps from two states, and what comes after them when they yield the same. -/
theorem Matching.bind {step step' : Run α} {next : α → Run β} {m n : Machine}
    (h : Matching R (step m) (step' n))
    (hn : ∀ a m' n', R m' n' → Matching R (next a m') (next a n')) :
    Matching R ((step >>= next) m) ((step' >>= next) n) := by
  show Matching R (EStateM.bind step next m) (EStateM.bind step' next n)
  unfold EStateM.bind
  cases hm : step m with
  | ok a m' =>
    cases hs : step' n with
    | ok b n' =>
      rw [hm, hs] at h
      obtain ⟨rfl, hr⟩ := h
      exact hn a m' n' hr
    | error b n' =>
      rw [hm, hs] at h
      exact h.elim
  | error a m' =>
    cases hs : step' n with
    | ok b n' =>
      rw [hm, hs] at h
      exact h.elim
    | error b n' =>
      rw [hm, hs] at h
      exact h

namespace Lockstep

/-! ## Single steps -/

theorem pure (a : α) : Lockstep R (Pure.pure a : Run α) :=
  fun _ _ h => ⟨rfl, h⟩

theorem throw (cause : Cause) : Lockstep R (throw cause : Run α) :=
  fun _ _ h => ⟨rfl, h⟩

theorem modify {f : Machine → Machine} (h : ∀ m n, R m n → R (f m) (f n)) :
    Lockstep R (modify f : Run PUnit) :=
  fun m n hr => ⟨rfl, h m n hr⟩

theorem ofExcept (r : Except Cause α) : Lockstep R (Run.ofExcept r) := by
  cases r with
  | ok a => exact Lockstep.pure a
  | error cause => exact Lockstep.throw cause

/-! ## Steps made of steps -/

theorem bind {step : Run α} {next : α → Run β} (h : Lockstep R step)
    (hn : ∀ a, Lockstep R (next a)) : Lockstep R (step >>= next) :=
  fun m n hr => (h m n hr).bind fun a m' n' hr' => hn a m' n' hr'

/-- A step that looks at the state: what it does next may depend only on what related states have in
common. -/
theorem getBind {next : Machine → Run β} (h : ∀ m n, R m n → Matching R (next m m) (next n n)) :
    Lockstep R (MonadState.get >>= next) :=
  h

/-- A step that takes from the state only what related states have in common. -/
theorem getSame {next : Machine → Run β} (hsame : ∀ m n, R m n → next m = next n)
    (h : ∀ m, Lockstep R (next m)) : Lockstep R (MonadState.get >>= next) := by
  refine getBind fun m n hr => ?_
  rw [hsame m n hr]
  exact h n m n hr

theorem inFrame {frame : Bindings} {step : Run α}
    (hpush : ∀ m n, R m n → R (m.push frame) (n.push frame))
    (hpop : ∀ m n, R m n → R m.pop n.pop) (h : Lockstep R step) :
    Lockstep R (Run.inFrame frame step) := by
  intro m n hr
  have hstep := h _ _ (hpush m n hr)
  unfold Run.inFrame
  cases hm : step (m.push frame) with
  | ok a m' =>
    cases hn : step (n.push frame) with
    | ok b n' =>
      rw [hm, hn] at hstep
      exact ⟨hstep.1, hpop m' n' hstep.2⟩
    | error b n' =>
      rw [hm, hn] at hstep
      exact hstep.elim
  | error a m' =>
    cases hn : step (n.push frame) with
    | ok b n' =>
      rw [hm, hn] at hstep
      exact hstep.elim
    | error b n' =>
      rw [hm, hn] at hstep
      exact ⟨hstep.1, hpop m' n' hstep.2⟩

/-! ## Operands -/

section Operands

variable {node : Node} {step : Run Value}

theorem operand (h : Lockstep R step) : Lockstep R (Run.operand node step) := by
  refine bind h fun v => ?_
  split
  · split <;> exact throw _
  · exact pure v

theorem condition (h : Lockstep R step) : Lockstep R (Run.condition node step) := by
  refine bind (operand h) fun v => ?_
  split
  · exact pure _
  · exact throw _

theorem dieParameter {which : DieParameter} (h : Lockstep R step) :
    Lockstep R (Run.dieParameter which node step) := by
  refine bind (operand h) fun v => ?_
  split
  · exact pure _
  · exact throw _

end Operands

end Lockstep

/-! ## Relations that no step sees through -/

/-- What makes related states indistinct to the steps of a run. -/
structure Indistinct (c : Context) (R : Machine → Machine → Prop) : Prop where
  frames : ∀ {m n}, R m n → m.frames = n.frames
  tier : ∀ {m n} tier name, R m n → c.qualified m tier name = c.qualified n tier name
  iterations : ∀ {m n}, R m n → m.iterations = n.iterations
  dice : ∀ {m n}, R m n → m.dice = n.dice
  record : ∀ {m n} action, R m n → R (m.record action) (n.record action)
  count : ∀ {m n}, R m n →
    R { m with iterations := m.iterations + 1 } { n with iterations := n.iterations + 1 }
  draw : ∀ {m n} dice, R m n → R { m with dice } { n with dice }
  bind : ∀ {m n} name v, R m n → R (m.bind name v) (n.bind name v)
  unbind : ∀ {m n} name, R m n → R (m.unbind name) (n.unbind name)
  push : ∀ {m n} frame, R m n → R (m.push frame) (n.push frame)
  pop : ∀ {m n}, R m n → R m.pop n.pop
  put : ∀ {m n tier name v s t}, R m n →
    m.store.put (Namespace.resolve tier c.identity) name v = .ok s →
    n.store.put (Namespace.resolve tier c.identity) name v = .ok t →
    R { m with store := s } { n with store := t }
  drop : ∀ {m n tier name v w s t}, R m n →
    m.store.drop (Namespace.resolve tier c.identity) name = .ok (v, s) →
    n.store.drop (Namespace.resolve tier c.identity) name = .ok (w, t) →
    R { m with store := s } { n with store := t }

namespace Indistinct

variable {c : Context}

/-! ### Reading and writing -/

theorem inTiers (h : Indistinct c R) {m n : Machine} (hr : R m n) (name : String)
    (tiers : List Tier) : c.inTiers m name tiers = c.inTiers n name tiers := by
  induction tiers with
  | nil => rfl
  | cons tier rest ih =>
    unfold Context.inTiers
    rw [h.tier tier name hr, ih]

theorem lookup (h : Indistinct c R) {m n : Machine} (hr : R m n) (name : String) :
    c.lookup m name = c.lookup n name := by
  unfold Context.lookup Machine.local?
  rw [h.frames hr, h.inTiers hr]

theorem callee (h : Indistinct c R) {m n : Machine} (hr : R m n) (name : String)
    (tier : Option Tier) : Run.callee c m name tier = Run.callee c n name tier := by
  cases tier with
  | some tier => exact h.tier tier name hr
  | none => exact h.lookup hr name

theorem redefines (h : Indistinct c R) {m n : Machine} (hr : R m n) (f : Function) :
    Run.redefines c m f = Run.redefines c n f := by
  unfold Run.redefines
  rw [h.tier f.tier f.name hr]

theorem resolve_ne_core {tier : Tier} {i : Identity} (h : tier ≠ .core) :
    Namespace.resolve tier i ≠ .core := by
  cases tier with
  | core => exact absurd rfl h
  | _ => exact Namespace.noConfusion

theorem lockstep_putQualified (h : Indistinct c R) (tier : Tier) (name : String) (v : Value) :
    Lockstep R (putQualified c tier name v) := by
  refine Lockstep.getBind fun m n hr => ?_
  by_cases htier : tier = .core
  · subst htier
    exact ⟨rfl, hr⟩
  · obtain ⟨s, hs⟩ := m.store.put_isOk (resolve_ne_core htier) name v
    obtain ⟨t, ht⟩ := n.store.put_isOk (resolve_ne_core htier) name v
    rw [hs, ht]
    exact ⟨rfl, h.put hr hs ht⟩

theorem lockstep_writable (tier : Tier) (name : String) : Lockstep R (writable tier name) := by
  unfold writable
  split
  · exact Lockstep.throw _
  · exact Lockstep.pure _

theorem lockstep_dropQualified (h : Indistinct c R) (tier : Tier) (name : String) :
    Lockstep R (dropQualified c tier name) := by
  refine Lockstep.bind (lockstep_writable tier name) fun _ => Lockstep.getBind fun m n hr => ?_
  by_cases htier : tier = .core
  · subst htier
    exact ⟨rfl, hr⟩
  · obtain ⟨s, hs⟩ := m.store.drop_isOk (resolve_ne_core htier) name
    obtain ⟨t, ht⟩ := n.store.drop_isOk (resolve_ne_core htier) name
    rw [hs, ht]
    exact ⟨h.tier tier name hr, h.drop hr hs ht⟩

theorem lockstep_unbindLocal (h : Indistinct c R) (name : String) :
    Lockstep R (unbindLocal name) := by
  refine Lockstep.getBind fun m n hr => ?_
  have hframe : m.frame = n.frame := (List.cons.inj (h.frames hr)).1
  refine ⟨?_, h.unbind name hr⟩
  rw [hframe]

/-! ### Functions -/

theorem lockstep_define (h : Indistinct c R) (f : Function) : Lockstep R (define c f) := by
  unfold define
  split
  · exact Lockstep.throw _
  · split
    · exact Lockstep.throw _
    · refine Lockstep.getSame (fun m n hr => by rw [h.redefines hr f]) fun m => ?_
      split
      · exact Lockstep.throw _
      · exact Lockstep.bind (h.lockstep_putQualified f.tier f.name (.function f)) fun _ =>
          Lockstep.pure _

def DeeperLockstep (R : Machine → Machine → Prop) (deeper : Deeper) : Prop :=
  ∀ run, deeper = some run → ∀ body, Lockstep R (run body)

theorem lockstep_callFunction (h : Indistinct c R) {deeper : Deeper} (hd : DeeperLockstep R deeper)
    {name : String} {f : Function} {argCount : Nat} {args : Run (List Value)}
    (hargs : Lockstep R args) : Lockstep R (callFunction c deeper name f argCount args) := by
  unfold callFunction
  split
  · exact Lockstep.throw _
  · cases hdeep : deeper with
    | none => exact Lockstep.throw _
    | some run =>
      refine Lockstep.bind hargs fun values => ?_
      exact Lockstep.inFrame (fun m n hr => h.push _ hr) (fun m n hr => h.pop hr)
        (hd run hdeep f.body)

theorem lockstep_call (h : Indistinct c R) {deeper : Deeper} (hd : DeeperLockstep R deeper)
    {name : String} {tier : Option Tier} {argCount : Nat} {args : Run (List Value)}
    (hargs : Lockstep R args) : Lockstep R (call c deeper name tier argCount args) := by
  refine Lockstep.getSame (fun m n hr => by rw [h.callee hr name tier]) fun m => ?_
  split
  · exact h.lockstep_callFunction hd hargs
  · exact Lockstep.throw _
  · exact Lockstep.throw _

/-! ### Loops and dice -/

theorem lockstep_chargeLoop (h : Indistinct c R) (limit : UInt64) (what : Guarded) :
    Lockstep R (chargeLoop limit what) := by
  refine Lockstep.bind (Lockstep.modify fun m n hr => h.count hr) fun _ => ?_
  refine Lockstep.getSame (fun m n hr => by rw [h.iterations hr]) fun m => ?_
  split
  · exact Lockstep.throw _
  · exact Lockstep.pure _

section Loops

variable {limits : Limits} {test : Run Bool} {body : Run Value}

theorem lockstep_whileLoop (h : Indistinct c R) (htest : Lockstep R test)
    (hbody : Lockstep R body) (room : Nat) :
    ∀ last, Lockstep R (whileLoop limits test body room last) := by
  induction room with
  | zero =>
    intro last
    refine Lockstep.bind htest fun b => ?_
    split
    · exact Lockstep.throw _
    · exact Lockstep.pure _
  | succ room ih =>
    intro last
    refine Lockstep.bind htest fun b => ?_
    split
    · exact Lockstep.bind (h.lockstep_chargeLoop _ _) fun _ => Lockstep.bind hbody fun v => ih v
    · exact Lockstep.pure _

theorem lockstep_doWhileLoop (h : Indistinct c R) (htest : Lockstep R test)
    (hbody : Lockstep R body) (room : Nat) :
    Lockstep R (doWhileLoop limits test body room) := by
  induction room with
  | zero => exact Lockstep.throw _
  | succ room ih =>
    refine Lockstep.bind (h.lockstep_chargeLoop _ _) fun _ => ?_
    refine Lockstep.bind hbody fun last => Lockstep.bind htest fun b => ?_
    split
    · exact ih
    · exact Lockstep.pure _

end Loops

theorem lockstep_drawFace (h : Indistinct c R) (sides : Nat) : Lockstep R (drawFace sides) := by
  intro m n hr
  rw [run_drawFace, run_drawFace, h.dice hr]
  exact ⟨rfl, h.draw _ hr⟩

theorem lockstep_drawFaces (h : Indistinct c R) (limit : UInt64) (sides count : Nat) :
    ∀ room drawn, Lockstep R (drawFaces limit sides count room drawn) := by
  induction count with
  | zero => exact fun _ _ => Lockstep.pure _
  | succ count ih =>
    intro room drawn
    cases room with
    | zero => exact Lockstep.throw _
    | succ room => exact Lockstep.bind (h.lockstep_drawFace sides) fun face => ih room (face :: drawn)

theorem lockstep_rollTotal (h : Indistinct c R) (title : String) (total : Option Int64) :
    Lockstep R (rollTotal title total) := by
  cases total with
  | none => exact Lockstep.throw _
  | some total =>
    exact Lockstep.bind (Lockstep.modify fun m n hr => h.record _ hr) fun _ => Lockstep.pure _

theorem lockstep_rollValue (h : Indistinct c R) (count sides : Int64) (form : DieForm)
    (faces : List Nat) : Lockstep R (rollValue count sides form faces) := by
  cases form with
  | scalar =>
    rw [rollValue]
    generalize addFaces? 0 faces = total
    exact h.lockstep_rollTotal _ total
  | vector =>
    exact Lockstep.bind (Lockstep.modify fun m n hr => h.record _ hr) fun _ => Lockstep.pure _

theorem lockstep_roll (h : Indistinct c R) (limit : UInt64) (count sides : Int64)
    (form : DieForm) : Lockstep R (roll limit count sides form) := by
  unfold roll
  split
  · exact Lockstep.throw _
  · split
    · exact Lockstep.throw _
    · exact Lockstep.bind (h.lockstep_drawFaces _ _ _ _ _) fun faces =>
        h.lockstep_rollValue count sides form faces

/-! ### Programs -/

theorem lockstep_loopFrame (h : Indistinct c R) {step : Run Value} (hs : Lockstep R step) :
    Lockstep R (inFrame {} step) :=
  Lockstep.inFrame (fun _ _ hr => h.push _ hr) (fun _ _ hr => h.pop hr) hs

variable {deeper : Deeper}

mutual

/-- Running a node goes in lockstep. -/
theorem lockstep_evaluate (h : Indistinct c R) (hd : DeeperLockstep R deeper) :
    ∀ node, Lockstep R (evaluate c deeper node)
  | .integer n => Lockstep.pure _
  | .float x => Lockstep.pure _
  | .string s => Lockstep.pure _
  | .boolean b => Lockstep.pure _
  | .list items => by
    rw [evaluate]
    exact Lockstep.bind (lockstep_operands h hd items) fun vs => Lockstep.pure _
  | .identifier name => by
    rw [evaluate]
    exact Lockstep.getSame (fun m n hr => by rw [h.lookup hr name]) fun m => Lockstep.pure _
  | .qualifiedIdentifier tier name => by
    rw [evaluate]
    exact Lockstep.getSame (fun m n hr => by rw [h.tier tier name hr]) fun m => Lockstep.pure _
  | .group inner => by
    rw [evaluate]
    exact lockstep_evaluate h hd inner
  | .binary op left right => by
    rw [evaluate]
    refine Lockstep.bind (Lockstep.operand (lockstep_evaluate h hd left)) fun l => ?_
    refine Lockstep.bind (Lockstep.operand (lockstep_evaluate h hd right)) fun r => ?_
    exact Lockstep.ofExcept _
  | .unary op node => by
    rw [evaluate]
    refine Lockstep.bind (Lockstep.operand (lockstep_evaluate h hd node)) fun v => ?_
    exact Lockstep.ofExcept _
  | .dice count sides form => by
    rw [evaluate]
    refine Lockstep.bind (lockstep_dieCount h hd count) fun n => ?_
    refine Lockstep.bind (Lockstep.dieParameter (lockstep_evaluate h hd sides)) fun m => ?_
    exact h.lockstep_roll _ n m form
  | .block statements => by
    rw [evaluate]
    exact lockstep_block h hd statements .undefined
  | .assign name node => by
    rw [evaluate]
    refine Lockstep.bind (Lockstep.operand (lockstep_evaluate h hd node)) fun v => ?_
    exact Lockstep.bind (Lockstep.modify fun m n hr => h.bind name v hr) fun _ => Lockstep.pure _
  | .qualifiedAssign tier name node => by
    rw [evaluate]
    refine Lockstep.bind (lockstep_writable tier name) fun _ => ?_
    refine Lockstep.bind (Lockstep.operand (lockstep_evaluate h hd node)) fun v => ?_
    exact Lockstep.bind (h.lockstep_putQualified tier name v) fun _ => Lockstep.pure _
  | .delete none name => by
    rw [evaluate]
    exact h.lockstep_unbindLocal name
  | .delete (some tier) name => by
    rw [evaluate]
    exact h.lockstep_dropQualified tier name
  | .print node => by
    rw [evaluate]
    refine Lockstep.bind (Lockstep.operand (lockstep_evaluate h hd node)) fun v => ?_
    exact Lockstep.bind (Lockstep.modify fun m n hr => h.record _ hr) fun _ => Lockstep.pure _
  | .branch test consequent alternative => by
    rw [evaluate]
    refine Lockstep.bind (Lockstep.condition (lockstep_evaluate h hd test)) fun b => ?_
    split
    · exact lockstep_block h hd consequent .undefined
    · exact lockstep_block h hd alternative .undefined
  | .whileLoop test body => by
    rw [evaluate]
    exact h.lockstep_loopFrame (h.lockstep_whileLoop
      (Lockstep.condition (lockstep_evaluate h hd test)) (lockstep_block h hd body .undefined) _ _)
  | .doWhile body test => by
    rw [evaluate]
    exact h.lockstep_loopFrame (h.lockstep_doWhileLoop
      (Lockstep.condition (lockstep_evaluate h hd test)) (lockstep_block h hd body .undefined) _)
  | .define name params body tier => by
    rw [evaluate]
    exact h.lockstep_define _
  | .call name tier args => by
    rw [evaluate]
    exact h.lockstep_call hd (lockstep_operands h hd args)

theorem lockstep_block (h : Indistinct c R) (hd : DeeperLockstep R deeper) :
    ∀ (nodes : List Node) (last : Value), Lockstep R (block c deeper last nodes)
  | [], last => by
    rw [block]
    exact Lockstep.pure last
  | node :: rest, last => by
    rw [block]
    exact Lockstep.bind (lockstep_evaluate h hd node) fun v => lockstep_block h hd rest v

theorem lockstep_operands (h : Indistinct c R) (hd : DeeperLockstep R deeper) :
    ∀ nodes : List Node, Lockstep R (operands c deeper nodes)
  | [] => by
    rw [operands]
    exact Lockstep.pure _
  | node :: rest => by
    rw [operands]
    refine Lockstep.bind (Lockstep.operand (lockstep_evaluate h hd node)) fun v => ?_
    exact Lockstep.bind (lockstep_operands h hd rest) fun vs => Lockstep.pure _

theorem lockstep_dieCount (h : Indistinct c R) (hd : DeeperLockstep R deeper) :
    ∀ count : Option Node, Lockstep R (dieCount c deeper count)
  | none => by
    rw [dieCount]
    exact Lockstep.pure _
  | some node => by
    rw [dieCount]
    exact Lockstep.dieParameter (lockstep_evaluate h hd node)

end

theorem lockstep_deeper (h : Indistinct c R) (levels : Nat) :
    DeeperLockstep R (Run.deeper c levels) := by
  induction levels with
  | zero =>
    intro run hrun
    exact absurd hrun (by simp [Run.deeper])
  | succ levels ih =>
    -- Both runs are at the same level, since they have made the same calls.
    intro run hrun body
    obtain rfl := Option.some.inj hrun
    exact lockstep_block h ih body .undefined

/-- Whole runs go in lockstep. -/
theorem lockstep_program (h : Indistinct c R) (node : Node) : Lockstep R (program c node) :=
  lockstep_evaluate h (h.lockstep_deeper _) node

end Indistinct

end DiceScript.Run
