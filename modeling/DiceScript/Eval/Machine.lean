import DiceScript.Dice.Stream
import DiceScript.Operator.Apply
import DiceScript.Store.Image

/-! # The state of a run

A run changes the store, its local frames, its log of actions, the count of loop iterations and its
stream of dice. It fails with a `Cause`, and the state at that point is kept: what was written before
a failure stays written.

- `Machine` — the state.
- `Context` — what does not change: the options and who runs.
- `Run` — a step that may change the state and may fail.
-/

namespace DiceScript

/-- The state of a run. -/
structure Machine where
  store : Store
  /-- The innermost frame of local variables. -/
  frame : Bindings
  /-- The enclosing frames, the nearest first. -/
  outer : List Bindings
  /-- What has been logged, in order. -/
  log : Array String
  /-- The iterations that all loops together have asked for. This is idealised: the count has no bound,
  where one of 64 bits would overflow if the limit were the greatest that 64 bits hold. -/
  iterations : Nat
  dice : Dice.Stream

namespace Machine

def start (store : Store) (dice : Dice.Stream) : Machine :=
  { store, frame := {}, outer := [], log := #[], iterations := 0, dice }

def frames (m : Machine) : List Bindings := m.frame :: m.outer

def local? (m : Machine) (name : String) : Option Value :=
  m.frames.findSome? (·.get? name)

def bind (m : Machine) (name : String) (v : Value) : Machine :=
  { m with frame := m.frame.insert name v }

def unbind (m : Machine) (name : String) : Machine :=
  { m with frame := m.frame.erase name }

def push (m : Machine) (frame : Bindings) : Machine :=
  { m with frame, outer := m.frames }

/-- Closes the innermost frame, unless it is the only one. -/
def pop (m : Machine) : Machine :=
  match m.outer with
  | frame :: outer => { m with frame, outer }
  | [] => m

def record (m : Machine) (action : String) : Machine := { m with log := m.log.push action }

end Machine

/-- What a run is given and does not change. -/
structure Context where
  options : Options
  identity : Identity

namespace Context

def qualified (c : Context) (m : Machine) (tier : Tier) (name : String) : Value :=
  m.store.get (Namespace.resolve tier c.identity) name

def inTiers (c : Context) (m : Machine) (name : String) : List Tier → Value
  | [] => .undefined
  | tier :: rest =>
    let v := c.qualified m tier name
    if v.isUndefined then c.inTiers m name rest else v

/-- The value of a name: the innermost local one, else that of the first tier in the resolution order
that has one. -/
def lookup (c : Context) (m : Machine) (name : String) : Value :=
  match m.local? name with
  | some v => v
  | none => c.inTiers m name c.options.resolutionOrder.tiers

end Context

/-! ## Steps -/

/-- A step of a run. -/
abbrev Run := EStateM Cause Machine

namespace Run

def ofExcept {α : Type} : Except Cause α → Run α
  | .ok a => pure a
  | .error c => throw c

/-- Runs a step with a frame opened, which is closed again however the step ends. -/
def inFrame {α : Type} (frame : Bindings) (step : Run α) : Run α := fun m =>
  match step (m.push frame) with
  | .ok a m => .ok a m.pop
  | .error c m => .error c m.pop

def log (action : String) : Run Unit := modify (·.record action)

/-- Counts one more iteration; fails when all loops together have had as many as are allowed. -/
def chargeLoop (limit : UInt64) (what : Guarded) : Run Unit := do
  modify fun m => { m with iterations := m.iterations + 1 }
  if limit.toNat < (← get).iterations then throw (.timeout what limit)

/-- A value that an operation needs; `node` is what yielded it. -/
def operand (node : Node) (step : Run Value) : Run Value := do
  let v ← step
  if v.isUndefined then
    match node.readsName? with
    | some name => throw (.missing name)
    | none => throw (.noValue node.kindName)
  else return v

def condition (node : Node) (step : Run Value) : Run Bool := do
  match ← operand node step with
  | .boolean b => return b
  | v => throw (.conditionType v.type)

/-! ## Loops -/

/-- Runs the body as long as the condition holds, `room` times at most. The value is that of the last
body. -/
def whileLoop (limits : Limits) (test : Run Bool) (body : Run Value) :
    (room : Nat) → (last : Value) → Run Value
  | 0, last => do
    if ← test then throw (.timeout .whileLoop limits.maxLoopIterations) else return last
  | room + 1, last => do
    if ← test then
      chargeLoop limits.maxTotalLoopIterations .whileLoop
      let last ← body
      whileLoop limits test body room last
    else return last

def doWhileLoop (limits : Limits) (test : Run Bool) (body : Run Value) :
    (room : Nat) → Run Value
  | 0 => throw (.timeout .doWhileLoop limits.maxLoopIterations)
  | room + 1 => do
    chargeLoop limits.maxTotalLoopIterations .doWhileLoop
    let last ← body
    if ← test then doWhileLoop limits test body room else return last

/-! ## Dice -/

def dieParameter (which : DieParameter) (node : Node) (step : Run Value) : Run Int64 := do
  match ← operand node step with
  | .integer n => return n
  | v => throw (.dieType which v.type)

def drawFace (sides : Nat) : Run Nat := do
  let (face, dice) := Dice.draw sides (← get).dice
  modify fun m => { m with dice }
  return face

theorem run_drawFace (sides : Nat) (m : Machine) :
    drawFace sides m =
      .ok (Dice.draw sides m.dice).1 { m with dice := (Dice.draw sides m.dice).2 } := rfl

/-- Draws `count` faces more than those in `drawn`, which come last first. Each takes a step, and the
roll gives up when there is no room for one. -/
def drawFaces (limit : UInt64) (sides : Nat) :
    (count room : Nat) → (drawn : List Nat) → Run (List Nat)
  | 0, _, drawn => return drawn.reverse
  | _ + 1, 0, _ => throw (.timeout .diceRoll limit)
  | count + 1, room + 1, drawn => do
    let face ← drawFace sides
    drawFaces limit sides count room (face :: drawn)

def facesText (faces : List Nat) : String := "[" ++ ", ".intercalate (faces.map toString) ++ "]"

/-- Adds faces to a total one after another; none as soon as 64 bits do not hold it. -/
def addFaces? (total : Int64) : List Nat → Option Int64
  | [] => some total
  | face :: faces =>
    match Number.fit? (total.toInt + face) with
    | some total => addFaces? total faces
    | none => none

/-- The total of a roll, logged under its title; none when 64 bits do not hold it. -/
def rollTotal (title : String) : Option Int64 → Run Value
  | none => throw .diceOverflow
  | some total => do
    log (title ++ " = " ++ toString total.toInt)
    return .integer total

def rollTitle (count sides : Int64) (faces : List Nat) : String :=
  toString count.toInt ++ "d" ++ toString sides.toInt ++ ": " ++ facesText faces

def rollValue (count sides : Int64) : DieForm → List Nat → Run Value
  | .scalar, faces =>
    rollTotal (rollTitle count sides faces) (addFaces? 0 faces)
  | .vector, faces => do
    log (rollTitle count sides faces)
    return .list (faces.map fun face => .integer (Int64.ofNat face))

def roll (limit : UInt64) (count sides : Int64) (form : DieForm) : Run Value :=
  if count.toInt < 0 then throw (.negativeCount count)
  else if sides.toInt < 1 then throw (.tooFewSides sides)
  else do
    let faces ← drawFaces limit sides.toInt.toNat count.toInt.toNat limit.toNat []
    rollValue count sides form faces

end Run

end DiceScript
