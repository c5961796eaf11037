import DiceScript.Interpreter
import DiceScript.Proofs.Eval.Lockstep
import DiceScript.Proofs.Recursion.Shape
import DiceScript.Proofs.Recursion.Termination

/-!
# Runs that roll no die

Drawing a face takes a word off the stream of dice for good, so a stream that has moved on never comes
back to where it was. A run that leaves its stream where it was has therefore drawn nothing anywhere on
its way, and goes the same way with any other stream.

- `Dice.Stream.Before` — a stream has moved on to another.
- `Primitive.unmoved_or_before` — a step either does not look at the stream or moves it on.
- `Ends.unmoved_or_before` — so does a whole run.
- `Interpreter.run_eq_of_rollsNone` — a run that rolls no die is the same with any dice.
-/

namespace DiceScript

open EStateM (Result)

/-! ## Streams move on -/

namespace Dice

/-- A stream has moved on to another: to a later block, or within the block it is in. -/
def Stream.Before (s u : Stream) : Prop :=
  s.started < u.started ∨ s.started = u.started ∧ u.pending.length < s.pending.length

namespace Stream.Before

variable {s u v : Stream}

theorem trans (h : s.Before u) (h' : u.Before v) : s.Before v := by
  unfold Before at *
  omega

theorem ne (h : s.Before u) : s ≠ u := by
  rintro rfl
  unfold Before at h
  omega

end Stream.Before

theorem Stream.before_next (s : Stream) : s.Before s.next.2 := by
  unfold next
  split
  · rename_i hpending
    exact .inr ⟨rfl, by simp [hpending]⟩
  · split
    · exact .inl (Nat.lt_succ_self _)
    · exact .inl (Nat.lt_succ_self _)

theorem Stream.before_skip (count : Nat) (s : Stream) : s.Before (s.skip count).next.2 := by
  induction count generalizing s with
  | zero => exact s.before_next
  | succ count ih => exact s.before_next.trans (ih s.next.2)

theorem before_drawFrom (sides tries : Nat) (s : Stream) : s.Before (drawFrom sides tries s).2 := by
  induction tries generalizing s with
  | zero => exact s.before_skip _
  | succ tries ih =>
    unfold drawFrom
    dsimp only
    split
    · exact s.before_next
    · exact s.before_next.trans (ih _)

theorem before_draw (sides : Nat) (s : Stream) : s.Before (draw sides s).2 :=
  before_drawFrom sides patience s

end Dice

namespace Recursion

open Run (Lockstep Matching)

variable {c : Context} {α β : Type}

/-! ## Other dice -/

def withDice (d : Dice.Stream) : Result Cause Machine α → Result Cause Machine α
  | .ok a m => .ok a { m with dice := d }
  | .error cause m => .error cause { m with dice := d }

theorem enter_dice (m : Machine) (frame : Option Bindings) (d : Dice.Stream) :
    enter { m with dice := d } frame = { enter m frame with dice := d } := by
  cases frame <;> rfl

theorem leave_dice (m : Machine) (frame : Option Bindings) (d : Dice.Stream) :
    leave { m with dice := d } frame = { leave m frame with dice := d } := by
  cases frame with
  | none => rfl
  | some frame =>
    obtain ⟨_, _, outer, _, _, _⟩ := m
    cases outer <;> rfl

theorem dice_enter (m : Machine) (frame : Option Bindings) : (enter m frame).dice = m.dice := by
  cases frame <;> rfl

theorem dice_leave (m : Machine) (frame : Option Bindings) : (leave m frame).dice = m.dice := by
  cases frame with
  | none => rfl
  | some frame =>
    obtain ⟨_, _, outer, _, _, _⟩ := m
    cases outer <;> rfl

/-! ## Steps -/

/-- The step does not look at the dice when it starts in this state. -/
def Unmoved (step : Run α) (m : Machine) : Prop :=
  (Run.left (step m)).dice = m.dice ∧
    ∀ d, step { m with dice := d } = withDice d (step m)

/-- Two states that differ in nothing but their dice, which are the given ones. -/
def Apart (d d' : Dice.Stream) (m n : Machine) : Prop :=
  m.dice = d ∧ n = { m with dice := d' }

/-- A step that goes in lockstep with itself under any two streams does not look at them. -/
theorem unmoved_of_lockstep {step : Run α} (h : ∀ d d', Lockstep (Apart d d') step) (m : Machine) :
    Unmoved step m := by
  have hmatch := fun d' => h m.dice d' m { m with dice := d' } ⟨rfl, rfl⟩
  constructor
  · have hsame := hmatch m.dice
    cases hr : step m with
    | ok a n =>
      rw [hr] at hsame
      exact hsame.2.1
    | error cause n =>
      rw [hr] at hsame
      exact hsame.2.1
  · intro d
    have hother := hmatch d
    cases hr : step m with
    | ok a n =>
      rw [hr] at hother
      cases hr' : step { m with dice := d } with
      | ok a' n' =>
        rw [hr'] at hother
        obtain ⟨rfl, -, rfl⟩ := hother
        rfl
      | error cause' n' =>
        rw [hr'] at hother
        exact hother.elim
    | error cause n =>
      rw [hr] at hother
      cases hr' : step { m with dice := d } with
      | ok a' n' =>
        rw [hr'] at hother
        exact hother.elim
      | error cause' n' =>
        rw [hr'] at hother
        obtain ⟨rfl, -, rfl⟩ := hother
        rfl

section Lockstep

variable {d d' : Dice.Stream}

/-- A step that reads the state without its dice. -/
theorem lockstep_read {f : Machine → α} (h : ∀ m d, f { m with dice := d } = f m) :
    Lockstep (Apart d d') (do return f (← get)) := by
  refine Lockstep.getBind fun m n hr => ?_
  obtain ⟨hdice, rfl⟩ := hr
  exact ⟨(h m d').symm, hdice, rfl⟩

theorem callee_dice (m : Machine) (d : Dice.Stream) (name : String) (tier : Option Tier) :
    Run.callee c { m with dice := d } name tier = Run.callee c m name tier := by
  have htiers : ∀ tiers, c.inTiers { m with dice := d } name tiers = c.inTiers m name tiers := by
    intro tiers
    induction tiers with
    | nil => rfl
    | cons tier rest ih =>
      unfold Context.inTiers
      rw [ih]
      rfl
  cases tier with
  | some tier => rfl
  | none =>
    unfold Run.callee Context.lookup
    rw [htiers]
    rfl

/-- A step that changes the state, but for its dice, in a way that does not depend on them. -/
theorem lockstep_modify {f : Machine → Machine} (hdice : ∀ m, (f m).dice = m.dice)
    (h : ∀ m d, f { m with dice := d } = { f m with dice := d }) :
    Lockstep (Apart d d') (modify f) := by
  refine Lockstep.modify fun m n hr => ?_
  obtain ⟨rfl, rfl⟩ := hr
  exact ⟨hdice m, h m d'⟩

theorem lockstep_log (action : String) : Lockstep (Apart d d') (Run.log action) :=
  lockstep_modify (fun _ => rfl) fun _ _ => rfl

theorem lockstep_putQualified (tier : Tier) (name : String) (v : Value) :
    Lockstep (Apart d d') (Run.putQualified c tier name v) := by
  refine Lockstep.getBind fun m n hr => ?_
  obtain ⟨rfl, rfl⟩ := hr
  dsimp only
  cases m.store.put (Namespace.resolve tier c.identity) name v with
  | ok store => exact ⟨rfl, rfl, rfl⟩
  | error cause => exact ⟨rfl, rfl, rfl⟩

theorem lockstep_dropQualified (tier : Tier) (name : String) :
    Lockstep (Apart d d') (Run.dropQualified c tier name) := by
  refine Lockstep.bind (Run.Indistinct.lockstep_writable tier name) fun _ => ?_
  refine Lockstep.getBind fun m n hr => ?_
  obtain ⟨rfl, rfl⟩ := hr
  dsimp only
  cases m.store.drop (Namespace.resolve tier c.identity) name with
  | ok dropped => exact ⟨rfl, rfl, rfl⟩
  | error cause => exact ⟨rfl, rfl, rfl⟩

theorem lockstep_define (f : Function) : Lockstep (Apart d d') (Run.define c f) := by
  unfold Run.define
  split
  · exact .throw _
  · split
    · exact .throw _
    · refine Lockstep.getBind fun m n hr => ?_
      obtain ⟨rfl, rfl⟩ := hr
      show Matching _ ((if Run.redefines c m f then _ else _ : Run Value) m)
        ((if Run.redefines c m f then _ else _ : Run Value) _)
      split
      · exact ⟨rfl, rfl, rfl⟩
      · exact ((lockstep_putQualified f.tier f.name (.function f)).bind fun _ => .pure _) m _
          ⟨rfl, rfl⟩

theorem lockstep_rollValue (count sides : Int64) (form : DieForm) (faces : List Nat) :
    Lockstep (Apart d d') (Run.rollValue count sides form faces) := by
  cases form with
  | scalar =>
    rw [Run.rollValue]
    generalize Run.addFaces? 0 faces = total
    cases total with
    | none => exact .throw _
    | some total => exact .bind (lockstep_log _) fun _ => .pure _
  | vector => exact .bind (lockstep_log _) fun _ => .pure _

end Lockstep

theorem unmoved_throw (cause : Cause) (m : Machine) : Unmoved (throw cause : Run α) m :=
  unmoved_of_lockstep (fun _ _ => .throw cause) m

/-- A step and what comes after it. -/
theorem unmoved_or_before_bind {step : Run α} {next : α → Run β} {m : Machine}
    (h : Unmoved step m ∨ m.dice.Before (Run.left (step m)).dice)
    (hnext : ∀ a n, Unmoved (next a) n ∨ n.dice.Before (Run.left (next a n)).dice) :
    Unmoved (step >>= next) m ∨ m.dice.Before (Run.left ((step >>= next) m)).dice := by
  have hbind : ∀ n, (step >>= next) n =
      match step n with
      | .ok a n' => next a n'
      | .error cause n' => .error cause n' := by
    intro n
    show EStateM.bind step next n = _
    unfold EStateM.bind
    cases step n <;> rfl
  unfold Unmoved at h ⊢
  simp only [hbind]
  cases hr : step m with
  | error cause n =>
    rw [hr] at h
    rcases h with ⟨hdice, hother⟩ | hbefore
    · refine .inl ⟨hdice, fun d => ?_⟩
      rw [hother]
      rfl
    · exact .inr hbefore
  | ok a n =>
    rw [hr] at h
    dsimp only
    rcases h with ⟨hdice, hother⟩ | hbefore
    · rcases hnext a n with ⟨hdice', hother'⟩ | hbefore
      · refine .inl ⟨hdice'.trans hdice, fun d => ?_⟩
        rw [hother]
        exact hother' d
      · exact .inr (hdice ▸ hbefore)
    · rcases hnext a n with ⟨hdice', -⟩ | hbefore'
      · exact .inr (hdice' ▸ hbefore)
      · exact .inr (hbefore.trans hbefore')

/-- Drawing no face leaves the stream alone, and drawing any moves it on. -/
theorem unmoved_or_before_drawFaces (limit : UInt64) (sides count : Nat) :
    ∀ (room : Nat) (drawn : List Nat) (m : Machine),
      Unmoved (Run.drawFaces limit sides count room drawn) m ∨
        m.dice.Before (Run.left (Run.drawFaces limit sides count room drawn m)).dice := by
  induction count with
  | zero => exact fun _ drawn m => .inl (unmoved_of_lockstep (fun _ _ => .pure drawn.reverse) m)
  | succ count ih =>
    intro room drawn m
    cases room with
    | zero => exact .inl (unmoved_throw _ m)
    | succ room =>
      refine unmoved_or_before_bind (.inr ?_) fun face => ih room (face :: drawn)
      rw [Run.run_drawFace]
      exact Dice.before_draw sides m.dice

/-- A step does not look at the dice, or it moves them on. -/
theorem Primitive.unmoved_or_before {step : Run β} (h : Primitive c step) (m : Machine) :
    Unmoved step m ∨ m.dice.Before (Run.left (step m)).dice := by
  cases h with
  | read name tier =>
    exact .inl (unmoved_of_lockstep (fun _ _ => lockstep_read fun n d => callee_dice n d name tier) m)
  | operand node v => exact .inl (unmoved_of_lockstep (fun _ _ => .operand (.pure v)) m)
  | condition node v => exact .inl (unmoved_of_lockstep (fun _ _ => .condition (.pure v)) m)
  | dieParameter which node v =>
    exact .inl (unmoved_of_lockstep (fun _ _ => .dieParameter (.pure v)) m)
  | binary op l r => exact .inl (unmoved_of_lockstep (fun _ _ => .ofExcept _) m)
  | unary op v => exact .inl (unmoved_of_lockstep (fun _ _ => .ofExcept _) m)
  | roll count sides form =>
    unfold Run.roll
    split
    · exact .inl (unmoved_throw _ m)
    · split
      · exact .inl (unmoved_throw _ m)
      · refine unmoved_or_before_bind (unmoved_or_before_drawFaces _ _ _ _ _ m) fun faces n => ?_
        exact .inl (unmoved_of_lockstep (fun _ _ => lockstep_rollValue count sides form faces) n)
  | bind name v =>
    refine .inl (unmoved_of_lockstep (fun _ _ => ?_) m)
    exact .bind (lockstep_modify (fun _ => rfl) fun _ _ => rfl) fun _ => .pure v
  | unbind name =>
    refine .inl (unmoved_of_lockstep (fun _ _ => Lockstep.getBind fun n n' hr => ?_) m)
    obtain ⟨rfl, rfl⟩ := hr
    exact ⟨rfl, rfl, rfl⟩
  | log action v =>
    exact .inl (unmoved_of_lockstep (fun _ _ => .bind (lockstep_log action) fun _ => .pure v) m)
  | writable tier name =>
    exact .inl (unmoved_of_lockstep (fun _ _ => Run.Indistinct.lockstep_writable tier name) m)
  | put tier name v =>
    refine .inl (unmoved_of_lockstep (fun _ _ => ?_) m)
    exact .bind (lockstep_putQualified tier name v) fun _ => .pure v
  | drop tier name =>
    exact .inl (unmoved_of_lockstep (fun _ _ => lockstep_dropQualified tier name) m)
  | define f => exact .inl (unmoved_of_lockstep (fun _ _ => lockstep_define f) m)
  | refuse cause h => exact .inl (unmoved_throw cause m)

theorem unmoved_chargeLoop (limit : UInt64) (what : Guarded) (m : Machine) :
    Unmoved (Run.chargeLoop limit what) m := by
  constructor
  · rw [Run.run_chargeLoop]
    split <;> rfl
  · intro d
    rw [Run.run_chargeLoop, Run.run_chargeLoop]
    dsimp only
    split <;> rfl

/-- The same of every step that a plan takes. -/
theorem Plan.Made.unmoved_or_before {depth : Nat} {stage : Stage} {step : Run β} {next : β → Plan α}
    (h : Plan.Made c depth stage (.act step next)) (m : Machine) :
    Unmoved step m ∨ m.dice.Before (Run.left (step m)).dice := by
  cases h with
  | act _ hstep _ => exact hstep.unmoved_or_before m
  | stop _ => exact .inl (unmoved_throw _ m)
  | charge _ _ => exact .inl (unmoved_chargeLoop _ _ m)

/-! ## Runs -/

/-- A run goes the same way with any dice, or it moves them on. -/
theorem Ends.unmoved_or_before {p : Plan α} {m : Machine} {r : Result Cause Machine α}
    (h : Ends c p m r) : ∀ {depth : Nat} {stage : Stage}, Plan.Made c depth stage p →
      ((Run.left r).dice = m.dice ∧ ∀ d, Ends c p { m with dice := d } (withDice d r)) ∨
        m.dice.Before (Run.left r).dice := by
  induction h with
  | done a m =>
    intro depth stage _
    exact .inl ⟨rfl, fun d => .done a _⟩
  | @act _ _ step next m m' b r hstep _ ih =>
    intro depth stage hp
    obtain ⟨stage', hnext⟩ := hp.act_next hstep
    have hfirst := hp.unmoved_or_before m
    unfold Unmoved at hfirst
    rw [hstep, Run.left_ok] at hfirst
    rcases hfirst with ⟨hdice, hother⟩ | hbefore
    · rcases ih hnext with ⟨hdice', hother'⟩ | hbefore
      · exact .inl ⟨hdice'.trans hdice, fun d => .act (hother d) (hother' d)⟩
      · exact .inr (hdice ▸ hbefore)
    · rcases ih hnext with ⟨hdice', -⟩ | hbefore'
      · exact .inr (hdice' ▸ hbefore)
      · exact .inr (hbefore.trans hbefore')
  | @actFails _ _ step next m m' cause hstep =>
    intro depth stage hp
    have hfirst := hp.unmoved_or_before m
    unfold Unmoved at hfirst
    rw [hstep] at hfirst
    rcases hfirst with ⟨hdice, hother⟩ | hbefore
    · exact .inl ⟨hdice, fun d => .actFails (hother d)⟩
    · exact .inr hbefore
  | @call _ depth' frame task next m m' v r _ _ ihcall ihnext =>
    intro depth stage hp
    obtain ⟨stage', hnext⟩ := hp.call_next v
    have hfirst := ihcall (made_plan c depth' task)
    rw [dice_enter, Run.left_ok] at hfirst
    have hrest := ihnext hnext
    rw [dice_leave] at hrest
    rcases hfirst with ⟨hdice, hother⟩ | hbefore
    · rcases hrest with ⟨hdice', hother'⟩ | hbefore
      · refine .inl ⟨hdice'.trans hdice, fun d => ?_⟩
        have hcall := hother d
        have hafter := hother' d
        rw [← enter_dice] at hcall
        rw [← leave_dice] at hafter
        exact .call hcall hafter
      · exact .inr (hdice ▸ hbefore)
    · rcases hrest with ⟨hdice', -⟩ | hbefore'
      · exact .inr (hdice' ▸ hbefore)
      · exact .inr (hbefore.trans hbefore')
  | @callFails _ depth' frame task next m m' cause _ ihcall =>
    intro depth stage hp
    have hfirst := ihcall (made_plan c depth' task)
    rw [dice_enter, Run.left_error] at hfirst
    rw [Run.left_error, dice_leave]
    rcases hfirst with ⟨hdice, hother⟩ | hbefore
    · refine .inl ⟨hdice, fun d => ?_⟩
      have hcall := hother d
      rw [← enter_dice] at hcall
      show Ends c _ _ (.error cause { leave m' frame with dice := d })
      rw [← leave_dice]
      exact .callFails hcall
    · exact .inr hbefore

end Recursion

namespace Interpreter

open Recursion

/-- A run rolls no die: it leaves its stream of dice where it was. -/
def RollsNone (options : Options) (dice : Dice.Stream) (store : Store) (program : Node)
    (identity : Identity) : Prop :=
  (Run.left (Run.program ⟨options, identity⟩ program (Machine.start store dice))).dice = dice

/-- A run that rolls no die yields the same with any dice, and leaves the same store. -/
theorem run_eq_of_rollsNone {options : Options} {dice : Dice.Stream} {store : Store} {program : Node}
    {identity : Identity} (h : RollsNone options dice store program identity)
    (dice' : Dice.Stream) :
    run options dice' store program identity = run options dice store program identity := by
  have hplan := carriedOut_program ⟨options, identity⟩ program
  have hends := hplan (Machine.start store dice)
  rcases hends.unmoved_or_before (made_plan _ 0 _) with ⟨-, hother⟩ | hbefore
  · have hsame := (hother dice').unique (hplan (Machine.start store dice'))
    unfold run
    rw [← hsame]
    cases Run.program ⟨options, identity⟩ program (Machine.start store dice) <;> rfl
  · exact absurd h.symm hbefore.ne

end Interpreter

end DiceScript
