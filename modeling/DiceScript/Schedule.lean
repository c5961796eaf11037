import DiceScript.Json.Record

/-! # When to save

A schedule counts commands and time since the last save and the last backup. Either is due when its
number of commands or its interval is reached, whichever comes first; a zero switches a trigger off.
A backup also counts as a save. A clock that goes back is taken to stand still.
-/

namespace DiceScript

/-- The triggers of one kind of persistence. -/
structure Cadence where
  commands : UInt64
  intervalSecs : UInt64
deriving Repr, DecidableEq, Inhabited

namespace Cadence

def isDue (c : Cadence) (commands elapsed : Nat) : Bool :=
  (0 < c.commands.toNat && c.commands.toNat ≤ commands) ||
    (0 < c.intervalSecs.toNat && c.intervalSecs.toNat * 1000 ≤ elapsed)

def toJson (c : Cadence) : Json :=
  .obj [("commands", .int c.commands.toNat), ("intervalSecs", .int c.intervalSecs.toNat)]

def ofJson? (scope : Json.Scope) (j : Json) : Option Cadence :=
  match Json.toFields? ["commands", "intervalSecs"] scope j with
  | some (_, [commands, interval]) => do
    let commands ← Json.required Json.toUInt64? commands
    let intervalSecs ← Json.required Json.toUInt64? interval
    return { commands, intervalSecs }
  | _ => none

end Cadence

structure ScheduleOptions where
  saveEvery : Cadence := ⟨10, 300⟩
  backupEvery : Cadence := ⟨100, 3600⟩
deriving Repr, DecidableEq, Inhabited

namespace ScheduleOptions

def toJson (o : ScheduleOptions) : Json :=
  .obj [("saveEvery", o.saveEvery.toJson), ("backupEvery", o.backupEvery.toJson)]

def ofJson? (scope : Json.Scope) (j : Json) : Option ScheduleOptions :=
  let default : ScheduleOptions := {}
  match Json.toFields? ["saveEvery", "backupEvery"] scope j with
  | some (inner, [save, backup]) => do
    let saveEvery ← Json.withDefault default.saveEvery (Cadence.ofJson? inner) save
    let backupEvery ← Json.withDefault default.backupEvery (Cadence.ofJson? inner) backup
    return { saveEvery, backupEvery }
  | _ => none

end ScheduleOptions

inductive PersistAction where
  | save
  | backup
deriving Repr, DecidableEq, Inhabited

def PersistAction.name : PersistAction → String
  | .save => "save"
  | .backup => "backup"

/-- Commands and time since the last save and the last backup. Both are idealised: a counter of 64 bits
would hold fewer than `2 ^ 64` commands, where these have no bound, and a clock may be finer than the
whole milliseconds in which times are given here. -/
structure Schedule where
  options : ScheduleOptions
  sinceSave : Nat
  sinceBackup : Nat
  lastSave : Nat
  lastBackup : Nat
  now : Nat
deriving Repr, DecidableEq, Inhabited

namespace Schedule

def start (options : ScheduleOptions) (now : Nat) : Schedule :=
  { options, sinceSave := 0, sinceBackup := 0, lastSave := now, lastBackup := now, now }

def update (s : Schedule) (time : Nat) : Schedule :=
  { s with now := max s.now time, sinceSave := s.sinceSave + 1, sinceBackup := s.sinceBackup + 1 }

def shouldSave (s : Schedule) : Bool :=
  s.options.saveEvery.isDue s.sinceSave (s.now - s.lastSave)

def shouldBackUp (s : Schedule) : Bool :=
  s.options.backupEvery.isDue s.sinceBackup (s.now - s.lastBackup)

/-- What is due; a backup goes before a save. -/
def nextAction (s : Schedule) : Option PersistAction :=
  if s.shouldBackUp then some .backup
  else if s.shouldSave then some .save
  else none

def saved (s : Schedule) : Schedule := { s with sinceSave := 0, lastSave := s.now }

def backedUp (s : Schedule) : Schedule :=
  { s.saved with sinceBackup := 0, lastBackup := s.now }

end Schedule

end DiceScript
