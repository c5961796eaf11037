import DiceScript.Proofs.Recursion.Shape
import Mathlib.Tactic

/-!
# Why steps fail

Four constructs count their steps, and each names its own limit when it gives up. Two of them, powers
and rolls, are over within one step of a plan; the other two are the loops, whose turns are counted
between steps. So a step that counts no turns fails with the limit of powers, with that of rolls, or
with a cause that names no number at all.

- `Cause.OfStep` — such a cause.
- `Operator.fails_binary`, `Operator.fails_unary` — why operators fail.
- `Recursion.Primitive.fails` — why steps of plans fail.
-/

namespace DiceScript

/-- A cause that names no number of steps, or the limit of powers or of rolls. -/
def Cause.OfStep (limits : Limits) : Cause → Prop
  | .timeout .exponentiation n => n = limits.maxExponentSteps
  | .timeout .diceRoll n => n = limits.maxDiceDraws
  | .timeout .whileLoop _ => False
  | .timeout .doWhileLoop _ => False
  | _ => True

theorem Cause.OfStep.of_not_isTimeout {limits : Limits} {cause : Cause}
    (h : cause.isTimeout = false) : cause.OfStep limits := by
  cases cause with
  | timeout what n => cases h
  | _ => trivial

/-! ## Operators -/

namespace Operator

variable {limits : Limits}

def Fails {α : Type} (limits : Limits) (result : Except Cause α) : Prop :=
  ∀ cause, result = .error cause → cause.OfStep limits

theorem fails_ok {α : Type} (a : α) : Fails limits (.ok a) := by
  intro cause h
  cases h

theorem fails_error {α : Type} {cause : Cause} (h : cause.OfStep limits) :
    Fails limits (.error cause : Except Cause α) := by
  rintro _ ⟨⟩
  exact h

theorem fails_refuse (op : BinaryOp) (l r : Value) :
    Fails limits (refuse op l r : Except Cause Value) :=
  fails_error trivial

theorem fails_exact (op : BinaryOp) (n : Int) : Fails limits (exact op n) := by
  unfold exact
  split
  · exact fails_ok _
  · exact fails_error trivial

theorem fails_finite (op : BinaryOp) (x : Float) : Fails limits (finite op x) := by
  unfold finite
  split
  · exact fails_ok _
  · exact fails_error trivial

theorem fails_logical (op : BinaryOp) (f : Bool → Bool → Bool) (l r : Value) :
    Fails limits (logical op f l r) := by
  unfold logical
  split
  · exact fails_ok _
  · exact fails_refuse op _ _

theorem fails_equality (op : BinaryOp) (negated : Bool) (l r : Value) :
    Fails limits (equality op negated l r) := by
  unfold equality
  split
  · exact fails_ok _
  · exact fails_refuse op _ _

theorem fails_ordering (op : BinaryOp) (accept : Ordering → Bool) (l r : Value) :
    Fails limits (ordering op accept l r) := by
  unfold ordering
  split
  · exact fails_ok _
  · exact fails_ok _
  · split
    · exact fails_refuse op _ _
    · split
      · exact fails_ok _
      · exact fails_error trivial

theorem fails_shift (op : BinaryOp) (l r : Value) : Fails limits (shift op l r) := by
  unfold shift
  split
  · split_ifs
    · exact fails_error trivial
    · exact fails_ok _
    · exact fails_exact op _
  · exact fails_refuse op _ _

theorem fails_arithmetic (op : BinaryOp) (onInt : Int → Int → Int)
    (onFloat : Float → Float → Float) (l r : Value) :
    Fails limits (arithmetic op onInt onFloat l r) := by
  unfold arithmetic
  split
  · exact fails_exact op _
  · split
    · exact fails_finite op _
    · exact fails_refuse op _ _

theorem fails_divide (l r : Value) : Fails limits (divide l r) := by
  unfold divide
  split
  · exact fails_refuse _ _ _
  · split
    · exact fails_error trivial
    · exact fails_finite _ _

theorem fails_floorDivide (l r : Value) : Fails limits (floorDivide l r) := by
  unfold floorDivide
  split
  · split
    · exact fails_error trivial
    · split
      · exact fails_error trivial
      · exact fails_ok _
  · split
    · exact fails_refuse _ _ _
    · split
      · exact fails_error trivial
      · exact fails_finite _ _

theorem fails_remainder (l r : Value) : Fails limits (remainder l r) := by
  unfold remainder
  split
  · split
    · exact fails_error trivial
    · split
      · exact fails_error trivial
      · exact fails_ok _
  · split
    · exact fails_refuse _ _ _
    · dsimp only
      split_ifs
      · exact fails_error trivial
      · exact fails_finite _ _
      · exact fails_finite _ _

theorem fails_concat (l r : Value) : Fails limits (concat l r) := by
  unfold concat
  split
  · exact fails_ok _
  · exact fails_ok _
  · exact fails_ok _
  · exact fails_refuse _ _ _

/-- The step that is one too many names the limit. -/
theorem fails_powerSteps (base : Int64) (exponent : Nat) :
    ∀ room product, Fails limits (powerSteps limits.maxExponentSteps base exponent room product) := by
  induction exponent with
  | zero =>
    intro room product
    rw [powerSteps]
    exact fails_ok _
  | succ exponent ih =>
    intro room product
    cases room with
    | zero => exact fails_error rfl
    | succ room =>
      rw [powerSteps]
      split
      · exact ih room _
      · exact fails_error trivial

theorem fails_floatPower (base exponent : Value) :
    Fails limits (floatPower limits.maxExponentSteps base exponent) := by
  unfold floatPower
  split
  · exact fails_refuse _ _ _
  · split_ifs
    · exact fails_error trivial
    · exact fails_error rfl
    · exact fails_finite _ _

theorem fails_power (base exponent : Value) :
    Fails limits (power limits.maxExponentSteps base exponent) := by
  unfold power
  split
  · rename_i b e
    split_ifs
    · exact fails_floatPower _ _
    · exact fails_error trivial
    · have hsteps : Fails limits (powerSteps limits.maxExponentSteps b e.toInt.toNat _ 1) :=
        fails_powerSteps b _ limits.maxExponentSteps.toNat 1
      cases hr : powerSteps limits.maxExponentSteps b e.toInt.toNat
          limits.maxExponentSteps.toNat 1 with
      | ok n => exact fails_ok _
      | error cause => exact fails_error (hsteps cause hr)
  · exact fails_floatPower _ _

theorem fails_logarithm (number base : Value) :
    Fails limits (logarithm limits.maxExponentSteps number base) := by
  unfold logarithm
  split
  · exact fails_refuse _ _ _
  · split_ifs
    · exact fails_error trivial
    · exact fails_error trivial
    · exact fails_error rfl
    · exact fails_finite _ _

theorem fails_binary (op : BinaryOp) (l r : Value) : Fails limits (binary limits op l r) := by
  unfold binary
  cases op with
  | or => exact fails_logical _ _ l r
  | xor => exact fails_logical _ _ l r
  | and => exact fails_logical _ _ l r
  | eq => exact fails_equality _ _ l r
  | ne => exact fails_equality _ _ l r
  | gt => exact fails_ordering _ _ l r
  | ge => exact fails_ordering _ _ l r
  | le => exact fails_ordering _ _ l r
  | lt => exact fails_ordering _ _ l r
  | shl => exact fails_shift _ l r
  | shr => exact fails_shift _ l r
  | add => exact fails_arithmetic _ _ _ l r
  | sub => exact fails_arithmetic _ _ _ l r
  | mul => exact fails_arithmetic _ _ _ l r
  | div => exact fails_divide l r
  | floorDiv => exact fails_floorDivide l r
  | rem => exact fails_remainder l r
  | concat => exact fails_concat l r
  | pow => exact fails_power l r
  | log => exact fails_logarithm l r

theorem fails_unary (op : UnaryOp) (v : Value) : Fails limits (unary op v) := by
  unfold unary
  split
  · exact fails_ok _
  · split
    · exact fails_ok _
    · exact fails_error trivial
  · exact fails_ok _
  · exact fails_ok _
  · exact fails_ok _
  · exact fails_error trivial

end Operator

/-! ## Steps -/

namespace Run

def Fails {α : Type} (limits : Limits) (step : Run α) : Prop :=
  ∀ m cause m', step m = .error cause m' → cause.OfStep limits

namespace Fails

variable {limits : Limits} {α β : Type}

theorem pure (a : α) : Fails limits (Pure.pure a : Run α) := by
  intro m cause m' h
  cases h

theorem get : Fails limits (MonadState.get : Run Machine) := by
  intro m cause m' h
  cases h

theorem modify (f : Machine → Machine) : Fails limits (modify f : Run PUnit) := by
  intro m cause m' h
  cases h

theorem throw {cause : Cause} (hcause : cause.OfStep limits) :
    Fails limits (throw cause : Run α) := by
  intro m cause' m' h
  cases h
  exact hcause

theorem ofExcept {r : Except Cause α} (h : Operator.Fails limits r) :
    Fails limits (Run.ofExcept r) := by
  cases r with
  | ok a => exact pure a
  | error cause => exact throw (h cause rfl)

theorem bind {step : Run α} {next : α → Run β} (h : Fails limits step)
    (hnext : ∀ a, Fails limits (next a)) : Fails limits (step >>= next) := by
  intro m cause m' hbind
  change EStateM.bind step next m = _ at hbind
  unfold EStateM.bind at hbind
  cases hr : step m with
  | ok a n =>
    rw [hr] at hbind
    exact hnext a n cause m' hbind
  | error cause' n =>
    rw [hr] at hbind
    cases hbind
    exact h m _ _ hr

theorem operand (node : Node) (v : Value) : Fails limits (Run.operand node (Pure.pure v)) := by
  refine bind (pure v) fun v => ?_
  split
  · split <;> exact throw trivial
  · exact pure v

theorem condition (node : Node) (v : Value) : Fails limits (Run.condition node (Pure.pure v)) := by
  refine bind (operand node v) fun v => ?_
  split
  · exact pure _
  · exact throw trivial

theorem dieParameter (which : DieParameter) (node : Node) (v : Value) :
    Fails limits (Run.dieParameter which node (Pure.pure v)) := by
  refine bind (operand node v) fun v => ?_
  split
  · exact pure _
  · exact throw trivial

theorem rollTotal (title : String) (total : Option Int64) :
    Fails limits (Run.rollTotal title total) := by
  cases total with
  | none => exact throw trivial
  | some total => exact bind (modify _) fun _ => pure _

theorem rollValue (count sides : Int64) (form : DieForm) (faces : List Nat) :
    Fails limits (Run.rollValue count sides form faces) := by
  cases form with
  | scalar =>
    rw [Run.rollValue]
    generalize Run.addFaces? 0 faces = total
    exact rollTotal _ total
  | vector => exact bind (modify _) fun _ => pure _

theorem drawFace (sides : Nat) : Fails limits (Run.drawFace sides) := by
  intro m cause m' h
  rw [Run.run_drawFace] at h
  cases h

theorem drawFaces (sides count : Nat) : ∀ room drawn,
    Fails limits (Run.drawFaces limits.maxDiceDraws sides count room drawn) := by
  induction count with
  | zero => exact fun _ _ => pure _
  | succ count ih =>
    intro room drawn
    cases room with
    | zero => exact throw rfl
    | succ room => exact bind (drawFace sides) fun face => ih room (face :: drawn)

theorem roll (count sides : Int64) (form : DieForm) :
    Fails limits (Run.roll limits.maxDiceDraws count sides form) := by
  unfold Run.roll
  split_ifs
  · exact throw trivial
  · exact throw trivial
  · exact bind (drawFaces _ _ _ _) fun faces => rollValue count sides form faces

theorem writable (tier : Tier) (name : String) : Fails limits (Run.writable tier name) := by
  unfold Run.writable
  split
  · exact throw trivial
  · exact pure _

theorem putQualified (c : Context) (tier : Tier) (name : String) (v : Value) :
    Fails limits (Run.putQualified c tier name v) := by
  refine bind get fun m => bind (ofExcept ?_) fun s => modify _
  unfold Store.put
  split
  · exact Operator.fails_error trivial
  · exact Operator.fails_ok _
  · exact Operator.fails_ok _
  · exact Operator.fails_ok _

theorem dropQualified (c : Context) (tier : Tier) (name : String) :
    Fails limits (Run.dropQualified c tier name) := by
  refine bind (writable tier name) fun _ => bind get fun m => bind (ofExcept ?_) fun p => ?_
  · unfold Store.drop
    split
    · exact Operator.fails_error trivial
    · exact Operator.fails_ok _
    · split <;> exact Operator.fails_ok _
    · split <;> exact Operator.fails_ok _
  · exact bind (modify _) fun _ => pure _

theorem define (c : Context) (f : Function) : Fails limits (Run.define c f) := by
  unfold Run.define
  split
  · exact throw trivial
  · split
    · exact throw trivial
    · refine bind get fun m => ?_
      split
      · exact throw trivial
      · exact bind (putQualified _ _ _ _) fun _ => pure _

end Fails

end Run

/-- A step that counts no turns of a loop fails with no timeout of a loop, and every other timeout
names its limit. -/
theorem Recursion.Primitive.fails {c : Context} {β : Type} {step : Run β}
    (h : Primitive c step) : Run.Fails c.options.limits step := by
  cases h with
  | read name tier => exact .bind .get fun _ => .pure _
  | operand node v => exact .operand node v
  | condition node v => exact .condition node v
  | dieParameter which node v => exact .dieParameter which node v
  | binary op l r => exact .ofExcept (Operator.fails_binary op l r)
  | unary op v => exact .ofExcept (Operator.fails_unary op v)
  | roll count sides form => exact .roll count sides form
  | bind name v => exact .bind (.modify _) fun _ => .pure _
  | unbind name => exact .bind .get fun _ => .bind (.modify _) fun _ => .pure _
  | log action v => exact .bind (.modify _) fun _ => .pure _
  | writable tier name => exact .writable tier name
  | put tier name v => exact .bind (.putQualified c tier name v) fun _ => .pure _
  | drop tier name => exact .dropQualified c tier name
  | define f => exact .define c f
  | refuse cause h => exact .throw (.of_not_isTimeout h)

end DiceScript
