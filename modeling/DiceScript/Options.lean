import DiceScript.Schedule
import DiceScript.Tier

/-! # Options of an interpreter

Limits on what one run may do, the order in which the tiers are searched for a name, whether a
function may be redefined, the persistence schedule and the seed of the dice. Everything has a
default.
-/

namespace DiceScript

/-- What one run may do. -/
structure Limits where
  /-- Iterations of one loop. -/
  maxLoopIterations : UInt64 := 1000
  /-- Iterations of all loops of a run together. -/
  maxTotalLoopIterations : UInt64 := 100000
  /-- Dice of one roll. -/
  maxDiceDraws : UInt64 := 10000
  /-- Multiplications of one power. -/
  maxExponentSteps : UInt64 := 10000
  /-- Calls that are active at once. -/
  maxCallDepth : UInt64 := 64
deriving Repr, DecidableEq, Inhabited

namespace Limits

def toJson (l : Limits) : Json :=
  .obj [("maxLoopIterations", .int l.maxLoopIterations.toNat),
    ("maxTotalLoopIterations", .int l.maxTotalLoopIterations.toNat),
    ("maxDiceDraws", .int l.maxDiceDraws.toNat),
    ("maxExponentSteps", .int l.maxExponentSteps.toNat),
    ("maxCallDepth", .int l.maxCallDepth.toNat)]

def ofJson? (scope : Json.Scope) (j : Json) : Option Limits :=
  let default : Limits := {}
  match Json.toFields? ["maxLoopIterations", "maxTotalLoopIterations", "maxDiceDraws",
    "maxExponentSteps", "maxCallDepth"] scope j with
  | some (_, [loop, total, dice, exponent, depth]) => do
    let maxLoopIterations ← Json.withDefault default.maxLoopIterations Json.toUInt64? loop
    let maxTotalLoopIterations ←
      Json.withDefault default.maxTotalLoopIterations Json.toUInt64? total
    let maxDiceDraws ← Json.withDefault default.maxDiceDraws Json.toUInt64? dice
    let maxExponentSteps ← Json.withDefault default.maxExponentSteps Json.toUInt64? exponent
    let maxCallDepth ← Json.withDefault default.maxCallDepth Json.toUInt64? depth
    return { maxLoopIterations, maxTotalLoopIterations, maxDiceDraws, maxExponentSteps,
             maxCallDepth }
  | _ => none

end Limits

/-- The order in which tiers are searched for a name that no frame binds. A tier that is not listed
is not searched. -/
structure ResolutionOrder where
  tiers : List Tier
  nodup : tiers.Nodup
deriving Repr, DecidableEq

namespace ResolutionOrder

def ofList? (tiers : List Tier) : Option ResolutionOrder :=
  if h : tiers.Nodup then some ⟨tiers, h⟩ else none

/-- From the narrowest tier to the widest. -/
def default : ResolutionOrder := ⟨[.personal, .shared, .global, .core], by decide⟩

instance : Inhabited ResolutionOrder := ⟨default⟩

def toJson (o : ResolutionOrder) : Json := .arr (o.tiers.map Tier.toJson)

def ofJson? (scope : Json.Scope) (j : Json) : Option ResolutionOrder :=
  (Json.toList? Tier.ofJson? scope j).bind ofList?

end ResolutionOrder

/-- Whether a name that is bound to a function may be defined again. -/
inductive Redefinition where
  | overwrite
  | forbid
deriving Repr, DecidableEq, Inhabited

namespace Redefinition

def name : Redefinition → String
  | .overwrite => "overwrite"
  | .forbid => "forbid"

def ofName? (s : String) : Option Redefinition :=
  if s = "overwrite" then some .overwrite
  else if s = "forbid" then some .forbid
  else none

end Redefinition

structure Options where
  limits : Limits := {}
  resolutionOrder : ResolutionOrder := ResolutionOrder.default
  redefinition : Redefinition := .overwrite
  schedule : ScheduleOptions := {}
  /-- The seed of the dice; each run derives its own stream from it. -/
  randomSeed : Option UInt64 := none
deriving Repr, DecidableEq, Inhabited

namespace Options

def toJson (o : Options) : Json :=
  .obj [("limits", o.limits.toJson),
    ("resolutionOrder", o.resolutionOrder.toJson),
    ("redefinition", .str o.redefinition.name),
    ("schedule", o.schedule.toJson),
    ("randomSeed", match o.randomSeed with
      | some seed => .int seed.toNat
      | none => .null)]

def ofJson? (scope : Json.Scope) (j : Json) : Option Options :=
  match Json.toFields? ["limits", "resolutionOrder", "redefinition", "schedule", "randomSeed"]
    scope j with
  | some (inner, [limits, order, redefinition, schedule, seed]) => do
    let limits ← Json.withDefault {} (Limits.ofJson? inner) limits
    let resolutionOrder ←
      Json.withDefault ResolutionOrder.default (ResolutionOrder.ofJson? inner) order
    let redefinition ← Json.withDefault .overwrite
      (fun j => (Json.toName? inner j).bind Redefinition.ofName?) redefinition
    let schedule ← Json.withDefault {} (ScheduleOptions.ofJson? inner) schedule
    let randomSeed ← Json.optional Json.toUInt64? seed
    return { limits, resolutionOrder, redefinition, schedule, randomSeed }
  | _ => none

end Options

end DiceScript
