import DiceScript.Interpreter
import Mathlib.Tactic

/-!
# Raising the limits

A limit is asked at five places: when a loop starts another turn, when all loops together do, when a
die is drawn, when a power takes a step and when a call goes one level further down. Nowhere else does
a run look at one, and what it finds there either stops it or changes nothing. So a run that no limit
stopped goes the same way under higher limits, step by step.

- `Cause.isLimit` — what a limit stops a run with.
- `Outlasts` — a step that does what another does, unless a limit stops that one.
- `outlasts_evaluate` — running a node under higher limits outlasts running it under lower ones.
- `raised_limits_change_nothing` — whole programs.
-/

namespace DiceScript

/-- Whether it was a limit that stopped a run. -/
def Cause.isLimit : Cause → Bool
  | .timeout .. => true
  | .callDepth .. => true
  | _ => false

/-- Each limit is at most the corresponding one. -/
structure Limits.Le (l l' : Limits) : Prop where
  loop : l.maxLoopIterations ≤ l'.maxLoopIterations
  total : l.maxTotalLoopIterations ≤ l'.maxTotalLoopIterations
  draws : l.maxDiceDraws ≤ l'.maxDiceDraws
  steps : l.maxExponentSteps ≤ l'.maxExponentSteps
  depth : l.maxCallDepth ≤ l'.maxCallDepth

instance : LE Limits := ⟨Limits.Le⟩

def Context.withLimits (c : Context) (l : Limits) : Context :=
  { c with options := { c.options with limits := l } }

/-! ## Operators -/

namespace Operator

/-- A second result that is the first one, unless a limit is why there is no first one. -/
def Outlasts (r r' : Except Cause Value) : Prop :=
  (∃ cause, r = .error cause ∧ cause.isLimit = true) ∨ r' = r

variable {limit limit' : UInt64}

theorem powerSteps_raised (limit limit' : UInt64) (base : Int64) (exponent : Nat)
    (product : Int64) {room room' : Nat} (hroom : room ≤ room') :
    (∃ cause, powerSteps limit base exponent room product = .error cause ∧ cause.isLimit = true) ∨
      powerSteps limit' base exponent room' product = powerSteps limit base exponent room product := by
  induction exponent generalizing room room' product with
  | zero =>
    right
    rw [powerSteps, powerSteps]
  | succ exponent ih =>
    cases room with
    | zero =>
      left
      exact ⟨_, rfl, rfl⟩
    | succ room =>
      obtain ⟨room', rfl⟩ : ∃ n, room' = n + 1 := ⟨room' - 1, by omega⟩
      rw [powerSteps, powerSteps]
      cases Number.fit? (product.toInt * base.toInt) with
      | none =>
        right
        rfl
      | some product => exact ih product (Nat.le_of_succ_le_succ hroom)

/-- A step that is taken unless the limit is zero. -/
theorem outlasts_oneStep (hlimit : limit ≤ limit') (r : Except Cause Value) :
    Outlasts (if limit.toNat = 0 then .error (.timeout .exponentiation limit) else r)
      (if limit'.toNat = 0 then .error (.timeout .exponentiation limit') else r) := by
  have hle := UInt64.le_iff_toNat_le.mp hlimit
  by_cases hzero : limit.toNat = 0
  · left
    exact ⟨_, if_pos hzero, rfl⟩
  · right
    rw [if_neg hzero, if_neg (by omega)]

theorem outlasts_floatPower (hlimit : limit ≤ limit') (base exponent : Value) :
    Outlasts (floatPower limit base exponent) (floatPower limit' base exponent) := by
  unfold floatPower
  split
  · exact .inr rfl
  · split
    · exact .inr rfl
    · exact outlasts_oneStep hlimit _

theorem outlasts_power (hlimit : limit ≤ limit') (base exponent : Value) :
    Outlasts (power limit base exponent) (power limit' base exponent) := by
  unfold power
  split
  · rename_i b e
    split
    · exact outlasts_floatPower hlimit _ _
    · split
      · exact .inr rfl
      · have hsteps := powerSteps_raised limit limit' b e.toInt.toNat 1
          (UInt64.le_iff_toNat_le.mp hlimit)
        rcases hsteps with ⟨cause, hstop, hcause⟩ | hsame
        · left
          exact ⟨cause, by rw [hstop]; rfl, hcause⟩
        · right
          rw [hsame]
  · exact outlasts_floatPower hlimit _ _

theorem outlasts_logarithm (hlimit : limit ≤ limit') (number base : Value) :
    Outlasts (logarithm limit number base) (logarithm limit' number base) := by
  unfold logarithm
  split
  · exact .inr rfl
  · split
    · exact .inr rfl
    · split
      · exact .inr rfl
      · exact outlasts_oneStep hlimit _

/-- Only powers and logarithms ask for a limit. -/
theorem outlasts_binary {l l' : Limits} (h : l ≤ l') (op : BinaryOp) (left right : Value) :
    Outlasts (binary l op left right) (binary l' op left right) := by
  cases op with
  | pow => exact outlasts_power h.steps left right
  | log => exact outlasts_logarithm h.steps left right
  | _ => exact .inr rfl

end Operator

namespace Run

/-! ## Steps -/

section Steps

variable {α β : Type}

def Stopped : EStateM.Result Cause Machine α → Prop
  | .ok _ _ => False
  | .error cause _ => cause.isLimit = true

/-- From any state, the second step does what the first one does, unless a limit stops that. -/
def Outlasts (step step' : Run α) : Prop :=
  ∀ m, Stopped (step m) ∨ step' m = step m

namespace Outlasts

theorem refl (step : Run α) : Outlasts step step :=
  fun _ => .inr rfl

theorem throw {cause : Cause} (h : cause.isLimit = true) (step' : Run α) :
    Outlasts (throw cause) step' :=
  fun _ => .inl h

theorem ofExcept {r r' : Except Cause Value} (h : Operator.Outlasts r r') :
    Outlasts (Run.ofExcept r) (Run.ofExcept r') := by
  intro m
  rcases h with ⟨cause, rfl, hcause⟩ | rfl
  · left
    exact hcause
  · right
    rfl

theorem bind {step step' : Run α} {next next' : α → Run β} (h : Outlasts step step')
    (hnext : ∀ a, Outlasts (next a) (next' a)) : Outlasts (step >>= next) (step' >>= next') := by
  intro m
  show Stopped (EStateM.bind step next m) ∨
    EStateM.bind step' next' m = EStateM.bind step next m
  unfold EStateM.bind
  rcases h m with hstop | hsame
  · left
    cases hr : step m with
    | ok a m' =>
      rw [hr] at hstop
      exact hstop.elim
    | error cause m' =>
      rw [hr] at hstop
      exact hstop
  · rw [hsame]
    cases step m with
    | ok a m' => exact hnext a m'
    | error cause m' => exact .inr rfl

/-- What comes after a step that is the same under both limits. -/
theorem after (step : Run α) {next next' : α → Run β} (h : ∀ a, Outlasts (next a) (next' a)) :
    Outlasts (step >>= next) (step >>= next') :=
  bind (refl step) h

theorem inFrame (frame : Bindings) {step step' : Run α} (h : Outlasts step step') :
    Outlasts (Run.inFrame frame step) (Run.inFrame frame step') := by
  intro m
  unfold Run.inFrame
  rcases h (m.push frame) with hstop | hsame
  · left
    cases hr : step (m.push frame) with
    | ok a m' =>
      rw [hr] at hstop
      exact hstop.elim
    | error cause m' =>
      rw [hr] at hstop
      exact hstop
  · right
    rw [hsame]

theorem operand (node : Node) {step step' : Run Value} (h : Outlasts step step') :
    Outlasts (Run.operand node step) (Run.operand node step') :=
  bind h fun _ => refl _

theorem condition (node : Node) {step step' : Run Value} (h : Outlasts step step') :
    Outlasts (Run.condition node step) (Run.condition node step') :=
  bind (operand node h) fun _ => refl _

theorem dieParameter (which : DieParameter) (node : Node) {step step' : Run Value}
    (h : Outlasts step step') :
    Outlasts (Run.dieParameter which node step) (Run.dieParameter which node step') :=
  bind (operand node h) fun _ => refl _

end Outlasts

end Steps

/-! ## Where a limit is asked -/

section Limited

variable {limit limit' : UInt64}

theorem outlasts_chargeLoop (h : limit ≤ limit') (what : Guarded) :
    Outlasts (chargeLoop limit what) (chargeLoop limit' what) := by
  have hle := UInt64.le_iff_toNat_le.mp h
  refine Outlasts.after _ fun _ => Outlasts.after _ fun m => ?_
  by_cases hover : limit.toNat < m.iterations
  · rw [if_pos hover]
    exact Outlasts.throw rfl _
  · rw [if_neg hover, if_neg (by omega)]
    exact Outlasts.refl _

theorem outlasts_drawFaces (limit limit' : UInt64) (sides count : Nat) :
    ∀ {room room' : Nat} (drawn : List Nat), room ≤ room' →
      Outlasts (drawFaces limit sides count room drawn) (drawFaces limit' sides count room' drawn) := by
  induction count with
  | zero =>
    intro room room' drawn _
    exact Outlasts.refl _
  | succ count ih =>
    intro room room' drawn hroom
    cases room with
    | zero => exact Outlasts.throw rfl _
    | succ room =>
      obtain ⟨room', rfl⟩ := Nat.exists_eq_add_of_lt (Nat.lt_of_succ_le hroom)
      exact Outlasts.after _ fun face => ih (face :: drawn) (by omega)

theorem outlasts_roll (h : limit ≤ limit') (count sides : Int64) (form : DieForm) :
    Outlasts (roll limit count sides form) (roll limit' count sides form) := by
  unfold roll
  split
  · exact Outlasts.refl _
  · split
    · exact Outlasts.refl _
    · exact Outlasts.bind (outlasts_drawFaces _ _ _ _ _ (UInt64.le_iff_toNat_le.mp h)) fun _ =>
        Outlasts.refl _

end Limited

section Loops

variable {l l' : Limits} {test test' : Run Bool} {body body' : Run Value}

theorem outlasts_whileLoop (h : l ≤ l') (htest : Outlasts test test')
    (hbody : Outlasts body body') {room room' : Nat} (hroom : room ≤ room') (last : Value) :
    Outlasts (whileLoop l test body room last) (whileLoop l' test' body' room' last) := by
  induction room generalizing room' last with
  | zero =>
    -- The lower limit allows no further turn: the loop ends here by itself or is stopped.
    cases room' with
    | zero =>
      refine Outlasts.bind htest fun b => ?_
      cases b with
      | true => exact Outlasts.throw rfl _
      | false => exact Outlasts.refl _
    | succ room' =>
      refine Outlasts.bind htest fun b => ?_
      cases b with
      | true => exact Outlasts.throw rfl _
      | false => exact Outlasts.refl _
  | succ room ih =>
    obtain ⟨room', rfl⟩ : ∃ n, room' = n + 1 := ⟨room' - 1, by omega⟩
    refine Outlasts.bind htest fun b => ?_
    cases b with
    | true =>
      refine Outlasts.bind (outlasts_chargeLoop h.total _) fun _ => ?_
      exact Outlasts.bind hbody fun v => ih (Nat.le_of_succ_le_succ hroom) v
    | false => exact Outlasts.refl _

theorem outlasts_doWhileLoop (h : l ≤ l') (htest : Outlasts test test')
    (hbody : Outlasts body body') {room room' : Nat} (hroom : room ≤ room') :
    Outlasts (doWhileLoop l test body room) (doWhileLoop l' test' body' room') := by
  induction room generalizing room' with
  | zero => exact Outlasts.throw rfl _
  | succ room ih =>
    obtain ⟨room', rfl⟩ : ∃ n, room' = n + 1 := ⟨room' - 1, by omega⟩
    refine Outlasts.bind (outlasts_chargeLoop h.total _) fun _ => ?_
    refine Outlasts.bind hbody fun last => Outlasts.bind htest fun b => ?_
    cases b with
    | true => exact ih (Nat.le_of_succ_le_succ hroom)
    | false => exact Outlasts.refl _

end Loops

/-! ## Names and calls -/

variable {c : Context} {l : Limits}

theorem inTiers_withLimits (m : Machine) (name : String) (tiers : List Tier) :
    (c.withLimits l).inTiers m name tiers = c.inTiers m name tiers := by
  induction tiers with
  | nil => rfl
  | cons tier rest ih =>
    rw [Context.inTiers, Context.inTiers, ih]
    rfl

theorem lookup_withLimits (m : Machine) (name : String) :
    (c.withLimits l).lookup m name = c.lookup m name := by
  unfold Context.lookup
  rw [inTiers_withLimits]
  rfl

theorem callee_withLimits (m : Machine) (name : String) (tier : Option Tier) :
    callee (c.withLimits l) m name tier = callee c m name tier := by
  cases tier with
  | some tier => rfl
  | none => exact lookup_withLimits m name

/-- What the higher limits leave room for, one level further down: at least what the lower ones do. -/
def DeeperOutlasts (deeper deeper' : Deeper) : Prop :=
  ∀ run, deeper = some run → ∃ run', deeper' = some run' ∧ ∀ body, Outlasts (run body) (run' body)

theorem outlasts_call {deeper deeper' : Deeper} (hdeeper : DeeperOutlasts deeper deeper')
    (name : String) (tier : Option Tier) (argCount : Nat) {args args' : Run (List Value)}
    (hargs : Outlasts args args') :
    Outlasts (call c deeper name tier argCount args)
      (call (c.withLimits l) deeper' name tier argCount args') := by
  refine Outlasts.after _ fun m => ?_
  rw [callee_withLimits]
  split
  · rename_i f _
    unfold callFunction
    split
    · exact Outlasts.refl _
    · cases hrun : deeper with
      | none => exact Outlasts.throw rfl _
      | some run =>
        obtain ⟨run', rfl, hbody⟩ := hdeeper run hrun
        exact Outlasts.bind hargs fun _ => Outlasts.inFrame _ (hbody f.body)
  · exact Outlasts.refl _
  · exact Outlasts.refl _

/-! ## Programs -/

variable {deeper deeper' : Deeper}

mutual

theorem outlasts_evaluate (h : c.options.limits ≤ l) (hd : DeeperOutlasts deeper deeper')
    (node : Node) :
    Outlasts (evaluate c deeper node) (evaluate (c.withLimits l) deeper' node) := by
  match node with
  | .integer n => exact Outlasts.refl _
  | .float x => exact Outlasts.refl _
  | .string s => exact Outlasts.refl _
  | .boolean b => exact Outlasts.refl _
  | .list items =>
    rw [evaluate, evaluate]
    exact Outlasts.bind (outlasts_operands h hd items) fun _ => Outlasts.refl _
  | .identifier name =>
    rw [evaluate, evaluate]
    simp only [lookup_withLimits]
    exact Outlasts.refl _
  | .qualifiedIdentifier tier name =>
    rw [evaluate, evaluate]
    exact Outlasts.refl _
  | .group inner =>
    rw [evaluate, evaluate]
    exact outlasts_evaluate h hd inner
  | .binary op left right =>
    rw [evaluate, evaluate]
    refine Outlasts.bind (Outlasts.operand left (outlasts_evaluate h hd left)) fun v => ?_
    refine Outlasts.bind (Outlasts.operand right (outlasts_evaluate h hd right)) fun w => ?_
    exact Outlasts.ofExcept (Operator.outlasts_binary h op v w)
  | .unary op operand =>
    rw [evaluate, evaluate]
    exact Outlasts.bind (Outlasts.operand operand (outlasts_evaluate h hd operand)) fun _ =>
      Outlasts.refl _
  | .dice count sides form =>
    rw [evaluate, evaluate]
    refine Outlasts.bind (outlasts_dieCount h hd count) fun n => ?_
    refine Outlasts.bind (Outlasts.dieParameter .sides sides (outlasts_evaluate h hd sides))
      fun m => ?_
    exact outlasts_roll h.draws n m form
  | .block statements =>
    rw [evaluate, evaluate]
    exact outlasts_block h hd .undefined statements
  | .assign name value =>
    rw [evaluate, evaluate]
    exact Outlasts.bind (Outlasts.operand value (outlasts_evaluate h hd value)) fun _ =>
      Outlasts.refl _
  | .qualifiedAssign tier name value =>
    rw [evaluate, evaluate]
    refine Outlasts.after _ fun _ => ?_
    exact Outlasts.bind (Outlasts.operand value (outlasts_evaluate h hd value)) fun _ =>
      Outlasts.refl _
  | .delete none name =>
    rw [evaluate, evaluate]
    exact Outlasts.refl _
  | .delete (some tier) name =>
    rw [evaluate, evaluate]
    exact Outlasts.refl _
  | .print value =>
    rw [evaluate, evaluate]
    exact Outlasts.bind (Outlasts.operand value (outlasts_evaluate h hd value)) fun _ =>
      Outlasts.refl _
  | .branch test consequent alternative =>
    rw [evaluate, evaluate]
    refine Outlasts.bind (Outlasts.condition test (outlasts_evaluate h hd test)) fun b => ?_
    cases b with
    | true => exact outlasts_block h hd .undefined consequent
    | false => exact outlasts_block h hd .undefined alternative
  | .whileLoop test body =>
    rw [evaluate, evaluate]
    refine Outlasts.inFrame _ ?_
    exact outlasts_whileLoop h (Outlasts.condition test (outlasts_evaluate h hd test))
      (outlasts_block h hd .undefined body) (UInt64.le_iff_toNat_le.mp h.loop) _
  | .doWhile body test =>
    rw [evaluate, evaluate]
    refine Outlasts.inFrame _ ?_
    exact outlasts_doWhileLoop h (Outlasts.condition test (outlasts_evaluate h hd test))
      (outlasts_block h hd .undefined body) (UInt64.le_iff_toNat_le.mp h.loop)
  | .define name params body tier =>
    rw [evaluate, evaluate]
    exact Outlasts.refl _
  | .call name tier args =>
    rw [evaluate, evaluate]
    exact outlasts_call hd name tier args.length (outlasts_operands h hd args)

theorem outlasts_block (h : c.options.limits ≤ l) (hd : DeeperOutlasts deeper deeper')
    (last : Value) (statements : List Node) :
    Outlasts (block c deeper last statements) (block (c.withLimits l) deeper' last statements) := by
  match statements with
  | [] => exact Outlasts.refl _
  | node :: rest =>
    rw [block, block]
    exact Outlasts.bind (outlasts_evaluate h hd node) fun v => outlasts_block h hd v rest

theorem outlasts_operands (h : c.options.limits ≤ l) (hd : DeeperOutlasts deeper deeper')
    (items : List Node) :
    Outlasts (operands c deeper items) (operands (c.withLimits l) deeper' items) := by
  match items with
  | [] => exact Outlasts.refl _
  | node :: rest =>
    rw [operands, operands]
    refine Outlasts.bind (Outlasts.operand node (outlasts_evaluate h hd node)) fun v => ?_
    exact Outlasts.bind (outlasts_operands h hd rest) fun _ => Outlasts.refl _

theorem outlasts_dieCount (h : c.options.limits ≤ l) (hd : DeeperOutlasts deeper deeper')
    (count : Option Node) :
    Outlasts (dieCount c deeper count) (dieCount (c.withLimits l) deeper' count) := by
  match count with
  | none => exact Outlasts.refl _
  | some node =>
    rw [dieCount, dieCount]
    exact Outlasts.dieParameter .count node (outlasts_evaluate h hd node)

end

theorem outlasts_deeper (h : c.options.limits ≤ l) {levels levels' : Nat}
    (hlevels : levels ≤ levels') :
    DeeperOutlasts (Run.deeper c levels) (Run.deeper (c.withLimits l) levels') := by
  induction levels generalizing levels' with
  | zero =>
    intro run hrun
    cases hrun
  | succ levels ih =>
    obtain ⟨levels', rfl⟩ : ∃ n, levels' = n + 1 := ⟨levels' - 1, by omega⟩
    rintro run hrun
    obtain rfl := Option.some.inj hrun
    exact ⟨_, rfl, fun body =>
      outlasts_block h (ih (Nat.le_of_succ_le_succ hlevels)) .undefined body⟩

theorem outlasts_program (h : c.options.limits ≤ l) (program : Node) :
    Outlasts (Run.program c program) (Run.program (c.withLimits l) program) :=
  outlasts_evaluate h (outlasts_deeper h (UInt64.le_iff_toNat_le.mp h.depth)) program

end Run

/-- **Raising limits changes nothing for a run that none of them stopped.** If a program does not end
because of a limit, then under limits that are each at least as high it ends in the same value or the
same cause of failure and in the same machine: the same store, the same log, the same dice left. So
an interpreter reports the same outcome or failure and keeps the same store. -/
theorem raised_limits_change_nothing {options : Options} {limits : Limits}
    (hlimits : options.limits ≤ limits) (program : Node) (identity : Identity) (store : Store)
    (dice : Dice.Stream)
    (hrun : ∀ cause m, Run.program ⟨options, identity⟩ program (Machine.start store dice) =
      .error cause m → cause.isLimit = false) :
    Run.program ⟨{ options with limits }, identity⟩ program (Machine.start store dice) =
      Run.program ⟨options, identity⟩ program (Machine.start store dice) ∧
    Interpreter.run { options with limits } dice store program identity =
      Interpreter.run options dice store program identity := by
  have hsame : Run.program ⟨{ options with limits }, identity⟩ program (Machine.start store dice) =
      Run.program ⟨options, identity⟩ program (Machine.start store dice) := by
    have hlimits : (⟨options, identity⟩ : Context).options.limits ≤ limits := hlimits
    rcases Run.outlasts_program hlimits program (Machine.start store dice) with hstop | hsame
    · cases hr : Run.program ⟨options, identity⟩ program (Machine.start store dice) with
      | ok v m =>
        rw [hr] at hstop
        exact hstop.elim
      | error cause m =>
        rw [hr] at hstop
        exact absurd hstop (by simp [Run.Stopped, hrun cause m hr])
    · exact hsame
  refine ⟨hsame, ?_⟩
  unfold Interpreter.run
  rw [hsame]

/-! ## A run that uses up its limits -/

/-- A function is called whose loop takes two turns, each with a power of two steps and a roll of two
dice. -/
def Node.frugal : Node :=
  .block [.define "f" [] [.assign "i" (.integer 0),
      .whileLoop (.binary .lt (.identifier "i") (.integer 2))
        [.print (.binary .pow (.integer 3) (.integer 2)),
          .dice (some (.integer 2)) (.integer 6) .scalar,
          .assign "i" (.binary .add (.identifier "i") (.integer 1))]] none,
    .call "f" none []]

def Limits.frugal : Limits :=
  { maxLoopIterations := 2, maxTotalLoopIterations := 2, maxDiceDraws := 2, maxExponentSteps := 2,
    maxCallDepth := 1 }

theorem raised_limits_change_nothing_frugal :
    let options : Options := { limits := .frugal }
    let ann : Identity := ⟨"ann", "guild"⟩
    let dice : Dice.Stream := { blocks := fun _ => [0], started := 0, pending := [] }
    options.limits ≤ {} ∧
      (∀ cause m, Run.program ⟨options, ann⟩ .frugal (Machine.start {} dice) = .error cause m →
        cause.isLimit = false) ∧
      Interpreter.run {} dice {} .frugal ann = Interpreter.run options dice {} .frugal ann ∧
      (Interpreter.run {} dice {} .frugal ann).1.toOption.map Outcome.actions =
        some ["9", "2d6: [1, 1] = 2", "9", "2d6: [1, 1] = 2"] := by
  intro options ann dice
  have hlimits : options.limits ≤ {} := by constructor <;> decide
  have hok : (Interpreter.run options dice {} .frugal ann).1.isOk = true := by decide +kernel
  have hrun : ∀ cause m, Run.program ⟨options, ann⟩ .frugal (Machine.start {} dice) =
      .error cause m → cause.isLimit = false := by
    intro cause m hm
    rw [Interpreter.run, hm] at hok
    cases hok
  have hsame := (raised_limits_change_nothing hlimits .frugal ann {} dice hrun).2
  exact ⟨hlimits, hrun, hsame, by decide +kernel⟩

end DiceScript
