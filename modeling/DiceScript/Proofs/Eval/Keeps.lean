import DiceScript.Eval.Node

/-!
# Steps that keep a property of the state

A step *keeps* a property of the machine when the property holds afterwards if it held before,
however the step ends, and what the step yields satisfies a second property. The rules of this module
put such steps together the way runs are put together; what a program does is said elsewhere.

- `Ends` — the property of a result.
- `Keeps` — the property of a step, with one rule per way of making a step.
- `Keeps.whileLoop`, `Keeps.doWhileLoop` — a loop keeps what its test and its body keep.
-/

namespace DiceScript.Run

variable {I : Machine → Prop} {α β : Type} {V : α → Prop} {W : β → Prop}

/-- How a step may end: in a state with `I`, and if it yields something, then with `V`. -/
def Ends (I : Machine → Prop) (V : α → Prop) : EStateM.Result Cause Machine α → Prop
  | .ok a m => I m ∧ V a
  | .error _ m => I m

def Keeps (I : Machine → Prop) (V : α → Prop) (step : Run α) : Prop :=
  ∀ m, I m → Ends I V (step m)

/-- A step and what comes after it, from one state. -/
theorem Ends.bind {step : Run α} {next : α → Run β} {m : Machine} (h : Ends I V (step m))
    (hn : ∀ a m', I m' → V a → Ends I W (next a m')) : Ends I W ((step >>= next) m) := by
  show Ends I W (EStateM.bind step next m)
  unfold EStateM.bind
  cases hr : step m with
  | ok a m' =>
    rw [hr] at h
    exact hn a m' h.1 h.2
  | error cause m' =>
    rw [hr] at h
    exact h

namespace Keeps

/-! ## Single steps -/

theorem pure {a : α} (h : V a) : Keeps I V (Pure.pure a : Run α) :=
  fun _ hm => ⟨hm, h⟩

theorem throw (cause : Cause) : Keeps I V (throw cause : Run α) :=
  fun _ hm => hm

theorem get : Keeps I I (MonadState.get : Run Machine) :=
  fun _ hm => ⟨hm, hm⟩

theorem modify {f : Machine → Machine} (h : ∀ m, I m → I (f m)) :
    Keeps I (fun _ => True) (modify f : Run PUnit) :=
  fun m hm => ⟨h m hm, trivial⟩

theorem ofExcept {r : Except Cause α} (h : ∀ a, r = .ok a → V a) : Keeps I V (Run.ofExcept r) := by
  cases r with
  | ok a => exact Keeps.pure (h a rfl)
  | error cause => exact Keeps.throw cause

theorem weaken {V' : α → Prop} {step : Run α} (h : Keeps I V step) (hV : ∀ a, V a → V' a) :
    Keeps I V' step := by
  intro m hm
  have hstep := h m hm
  cases hr : step m with
  | ok a m' =>
    rw [hr] at hstep
    exact ⟨hstep.1, hV a hstep.2⟩
  | error cause m' =>
    rw [hr] at hstep
    exact hstep

/-! ## Steps made of steps -/

theorem bind {step : Run α} {next : α → Run β} (h : Keeps I V step)
    (hn : ∀ a, V a → Keeps I W (next a)) : Keeps I W (step >>= next) :=
  fun m hm => (h m hm).bind fun a m' hm' ha => hn a ha m' hm'

/-- A step that depends on the state it starts in. -/
theorem getBind {next : Machine → Run β} (h : ∀ m, I m → Ends I W (next m m)) :
    Keeps I W (MonadState.get >>= next) :=
  fun m hm => h m hm

theorem inFrame {frame : Bindings} {step : Run α} (hpush : ∀ m, I m → I (m.push frame))
    (hpop : ∀ m, I m → I m.pop) (h : Keeps I V step) : Keeps I V (Run.inFrame frame step) := by
  intro m hm
  have hstep := h _ (hpush m hm)
  unfold Run.inFrame
  cases hr : step (m.push frame) with
  | ok a m' =>
    rw [hr] at hstep
    exact ⟨hpop m' hstep.1, hstep.2⟩
  | error cause m' =>
    rw [hr] at hstep
    exact hpop m' hstep

/-! ## Operands -/

section Operands

variable {U : Value → Prop} {node : Node} {step : Run Value}

theorem operand (h : Keeps I U step) :
    Keeps I (fun v => U v ∧ v.isUndefined = false) (Run.operand node step) := by
  refine bind h fun v hv => ?_
  split
  · split <;> exact throw _
  · rename_i hu
    exact pure ⟨hv, by simpa using hu⟩

theorem condition (h : Keeps I U step) : Keeps I (fun _ => True) (Run.condition node step) := by
  refine bind (operand h) fun v _ => ?_
  split
  · exact pure trivial
  · exact throw _

theorem dieParameter {which : DieParameter} (h : Keeps I U step) :
    Keeps I (fun _ => True) (Run.dieParameter which node step) := by
  refine bind (operand h) fun v _ => ?_
  split
  · exact pure trivial
  · exact throw _

end Operands

/-! ## Loops -/

section Loops

variable {U : Value → Prop} {limits : Limits} {test : Run Bool} {body : Run Value}

theorem chargeLoop {limit : UInt64} {what : Guarded}
    (hcount : ∀ m, I m → I { m with iterations := m.iterations + 1 }) :
    Keeps I (fun _ => True) (Run.chargeLoop limit what) := by
  refine bind (modify hcount) fun _ _ => bind get fun m _ => ?_
  split
  · exact throw _
  · exact pure trivial

theorem whileLoop (hcount : ∀ m, I m → I { m with iterations := m.iterations + 1 })
    (htest : Keeps I (fun _ => True) test) (hbody : Keeps I U body) (room : Nat) :
    ∀ last, U last → Keeps I U (Run.whileLoop limits test body room last) := by
  induction room with
  | zero =>
    intro last hl
    refine bind htest fun b _ => ?_
    split
    · exact throw _
    · exact pure hl
  | succ room ih =>
    intro last hl
    refine bind htest fun b _ => ?_
    split
    · exact bind (chargeLoop hcount) fun _ _ => bind hbody fun last' hl' => ih last' hl'
    · exact pure hl

theorem doWhileLoop (hcount : ∀ m, I m → I { m with iterations := m.iterations + 1 })
    (htest : Keeps I (fun _ => True) test) (hbody : Keeps I U body) (room : Nat) :
    Keeps I U (Run.doWhileLoop limits test body room) := by
  induction room with
  | zero => exact throw _
  | succ room ih =>
    refine bind (chargeLoop hcount) fun _ _ => bind hbody fun last hl => bind htest fun b _ => ?_
    split
    · exact ih
    · exact pure hl

end Loops

/-! ## Dice -/

theorem drawFace {sides : Nat} (hdice : ∀ m dice, I m → I { m with dice }) :
    Keeps I (fun _ => True) (Run.drawFace sides) := by
  intro m hm
  rw [Run.run_drawFace]
  exact ⟨hdice m _ hm, trivial⟩

theorem drawFaces {limit : UInt64} {sides : Nat} (hdice : ∀ m dice, I m → I { m with dice })
    (count : Nat) : ∀ room drawn,
      Keeps I (fun _ => True) (Run.drawFaces limit sides count room drawn) := by
  induction count with
  | zero => exact fun _ _ => pure trivial
  | succ count ih =>
    intro room drawn
    cases room with
    | zero => exact throw _
    | succ room => exact bind (drawFace hdice) fun face _ => ih room (face :: drawn)

theorem rollTotal {U : Value → Prop} {title : String} {total : Option Int64}
    (hlog : ∀ m action, I m → I (m.record action)) (hint : ∀ n, U (.integer n)) :
    Keeps I U (Run.rollTotal title total) := by
  cases total with
  | none => exact throw _
  | some total => exact bind (modify fun m hm => hlog m _ hm) fun _ _ => pure (hint total)

theorem rollValue {U : Value → Prop} {count sides : Int64} {form : DieForm} {faces : List Nat}
    (hlog : ∀ m action, I m → I (m.record action)) (hint : ∀ n, U (.integer n))
    (hlist : ∀ faces : List Int64, U (.list (faces.map .integer))) :
    Keeps I U (Run.rollValue count sides form faces) := by
  cases form with
  | scalar =>
    rw [Run.rollValue]
    generalize Run.addFaces? 0 faces = total
    exact rollTotal hlog hint
  | vector =>
    refine bind (modify fun m hm => hlog m _ hm) fun _ _ => pure ?_
    have hfaces := hlist (faces.map Int64.ofNat)
    rwa [List.map_map] at hfaces

/-- A roll yields an integer or a list of integers. -/
theorem roll {U : Value → Prop} {limit : UInt64} {count sides : Int64} {form : DieForm}
    (hlog : ∀ m action, I m → I (m.record action)) (hdice : ∀ m dice, I m → I { m with dice })
    (hint : ∀ n, U (.integer n))
    (hlist : ∀ faces : List Int64, U (.list (faces.map .integer))) :
    Keeps I U (Run.roll limit count sides form) := by
  unfold Run.roll
  split
  · exact throw _
  · split
    · exact throw _
    · exact bind (drawFaces hdice _ _ _) fun faces _ => rollValue hlog hint hlist

end Keeps

end DiceScript.Run
