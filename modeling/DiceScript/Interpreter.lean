import DiceScript.Eval.Node
import DiceScript.Medium

/-! # The interpreter

A store with its medium, options, the persistence schedule and the number of runs so far. Each run
has its own frames, log and stream of dice: the stream is that of the seed plus the number of the run.

- `execute` — runs one program.
- `afterCommand` — reports a command to the schedule and does what is due.
- `flush` — a last save.
-/

namespace DiceScript

open Files (Disk)

structure Outcome where
  value : Value
  actions : List String

/-- A store with what is needed to run programs on it and to keep it. -/
structure Interpreter where
  store : Store
  medium : Option Medium
  options : Options
  schedule : Schedule
  /-- The number of runs so far. -/
  invocations : Nat
  /-- The seed of the dice when the options have none. -/
  entropy : UInt64

namespace Interpreter

def start (store : Store) (medium : Option Medium) (options : Options) (now : Nat)
    (entropy : UInt64) : Interpreter :=
  { store, medium, options, entropy, schedule := Schedule.start options.schedule now,
    invocations := 0 }

/-! ## Running -/

/-- The dice of the run that comes next. -/
def dice (i : Interpreter) : Dice.Stream :=
  .ofSeed (i.options.randomSeed.getD i.entropy + UInt64.ofNat i.invocations)

def run (options : Options) (dice : Dice.Stream) (store : Store) (program : Node)
    (identity : Identity) : Except Failure Outcome × Store :=
  match Run.program ⟨options, identity⟩ program (Machine.start store dice) with
  | .ok value m => (.ok { value, actions := m.log.toList }, m.store)
  | .error cause m => (.error (cause.failure m.log.toList), m.store)

/-- Runs a program as someone. -/
def execute (i : Interpreter) (program : Node) (identity : Identity) :
    Except Failure Outcome × Interpreter :=
  let (result, store) := run i.options i.dice i.store program identity
  (result, { i with store, invocations := i.invocations + 1 })

def keys (i : Interpreter) (tier : Tier) (identity : Identity) : List String :=
  i.store.keys (Namespace.resolve tier identity)

/-! ## Keeping the store -/

def isDurable (i : Interpreter) : Bool := i.medium.isSome

section Persistence

variable {m : Type → Type} [Monad m] [Disk m]

def save (i : Interpreter) : m (Except StorageFault Unit × Interpreter) := do
  match i.medium with
  | none => return (.error .noMedium, i)
  | some d =>
    let (result, d) ← d.save i.store.image
    return (result, { i with medium := some d })

def backup (i : Interpreter) (now : Nat) : m (Except StorageFault Unit × Interpreter) := do
  match i.medium with
  | none => return (.error .noMedium, i)
  | some d =>
    match ← d.save i.store.image with
    | (.error fault, d) => return (.error fault, { i with medium := some d })
    | (.ok _, d) =>
      let (result, d) ← d.backup now i.store.image
      return (result, { i with medium := some d })

/-- Reports a completed command to the schedule and does what is due now. When that fails, it stays
due. -/
def afterCommand (i : Interpreter) (now : Nat) :
    m (Except StorageFault (Option PersistAction) × Interpreter) := do
  let i := { i with schedule := i.schedule.update now }
  if i.isDurable then
    match i.schedule.nextAction with
    | none => return (.ok none, i)
    | some .backup =>
      match ← i.backup now with
      | (.error fault, i) => return (.error fault, i)
      | (.ok _, i) => return (.ok (some .backup), { i with schedule := i.schedule.backedUp })
    | some .save =>
      match ← i.save with
      | (.error fault, i) => return (.error fault, i)
      | (.ok _, i) => return (.ok (some .save), { i with schedule := i.schedule.saved })
  else return (.ok none, i)

def flush (i : Interpreter) : m (Except StorageFault Unit × Interpreter) := do
  match ← i.save with
  | (.error fault, i) => return (.error fault, i)
  | (.ok _, i) => return (.ok (), { i with schedule := i.schedule.saved })

/-- The store that a medium has saved, empty when it has saved nothing. -/
def openStore (d : Medium) : m (Except StorageFault Store) := do
  match ← d.load with
  | .error fault => return .error fault
  | .ok none => return .ok {}
  | .ok (some image) => return image.restore

end Persistence

end Interpreter

end DiceScript
