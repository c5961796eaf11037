import DiceScript.Interpreter

/-! # What commands print

A report is what a command comes to; `lines` is its text, one line after another, and `exitCode` what
the process ends with. Everything that a program or a store can choose is written as JSON, in which a
line break is an escape, so one payload is one line.
-/

namespace DiceScript.Command

/-! ## Faults -/

inductive HostStep where
  | input
  | readProgram
  | decodeProgram
  | readConfig
  | decodeConfig
  | findCore
  | enterCore
  | scanCore
  | readCore
  | decodeCore
deriving Repr, DecidableEq, Inhabited

def HostStep.code : HostStep → String
  | .input => "CLI_IO"
  | .readProgram => "CLI_PROGRAM_READ"
  | .decodeProgram => "CLI_PROGRAM_INVALID"
  | .readConfig => "CLI_CONFIG_READ"
  | .decodeConfig => "CLI_CONFIG_INVALID"
  | .findCore => "CLI_CORE_NOT_FOUND"
  | .enterCore => "CLI_CORE_NOT_DIR"
  | .scanCore => "CLI_CORE_SCAN"
  | .readCore => "CLI_CORE_READ"
  | .decodeCore => "CLI_CORE_INVALID"

/-- Why a command fails. -/
inductive Fault where
  /-- Something around the interpreter failed. -/
  | host (step : HostStep) (message : String)
  /-- The store could not be fetched or kept. -/
  | storage (fault : StorageFault)
  /-- The program failed. -/
  | program (failure : Failure)
deriving Repr, DecidableEq, Inhabited

namespace Fault

def code : Fault → String
  | .host step _ => step.code
  | .storage fault => fault.failure.kind.code
  | .program failure => failure.kind.code

def message : Fault → String
  | .host _ message => message
  | .storage fault => fault.message
  | .program failure => failure.message

def iterations : Fault → Option UInt64
  | .program failure => failure.iterations
  | _ => none

def actions : Fault → List String
  | .program failure => failure.actions
  | _ => []

end Fault

/-! ## Replies -/

/-- What keeping the store after a command came to. -/
inductive Persisted where
  | done (action : PersistAction)
  | failed (fault : StorageFault)
deriving Repr, DecidableEq, Inhabited

def Persisted.text : Persisted → String
  | .done action => action.name
  | .failed fault => "failed: " ++ fault.message

/-- What a line of input came to. -/
inductive Answer where
  /-- The program ran. -/
  | success (outcome : Outcome)
  /-- The program failed. -/
  | failure (failure : Failure)
  /-- The line is no command. -/
  | invalid (message : String)

structure Reply where
  answer : Answer
  persisted : Option Persisted

namespace Reply

def isOk (r : Reply) : Bool :=
  match r.answer with
  | .success _ => true
  | _ => false

def textsJson (texts : List String) : Json := .arr (texts.map .str)

def errorJson (kind message : String) (iterations : Option UInt64) : Json :=
  .obj ([("kind", .str kind), ("message", .str message)] ++
    match iterations with
    | some n => [("iterations", .int n.toNat)]
    | none => [])

def answerMembers : Answer → List (String × Json)
  | .success o =>
    [("ok", .bool true), ("value", o.value.toJson), ("display", .str o.value.display),
      ("actions", textsJson o.actions)]
  | .failure f =>
    [("ok", .bool false), ("actions", textsJson f.actions),
      ("error", errorJson f.kind.code f.message f.iterations)]
  | .invalid message =>
    [("ok", .bool false), ("actions", textsJson []),
      ("error", errorJson HostStep.decodeProgram.code message none)]

def toJson (r : Reply) : Json :=
  .obj (answerMembers r.answer ++
    match r.persisted with
    | some p => [("persisted", .str p.text)]
    | none => [])

end Reply

/-! ## Reports -/

/-- What a command comes to. -/
inductive Report where
  /-- The program ran; `kept` tells whether the store is saved, if it has to be. -/
  | outcome (outcome : Outcome) (kept : Bool)
  /-- The names in tiers. -/
  | names (tiers : List (Tier × List String))
  /-- The replies to lines of input, and why there are no more if that was not their end. -/
  | session (replies : List Reply) (fault : Option Fault)
  /-- The command failed. -/
  | fault (fault : Fault)
  /-- Nothing was asked for. -/
  | help
  /-- The command line was not understood. -/
  | usage

namespace Report

def actionLines (actions : List String) : List String :=
  actions.map fun action => "ACTION_JSON:" ++ Json.quote action

def faultLines (f : Fault) : List String :=
  ["RESULT:ERROR", "ERROR_KIND:" ++ f.code, "ERROR_MSG_JSON:" ++ Json.quote f.message] ++
    (match f.iterations with
      | some n => ["ITERATIONS:" ++ toString n.toNat]
      | none => []) ++
    actionLines f.actions

def outcomeLines (o : Outcome) : List String :=
  ["RESULT:OK", "VALUE_JSON:" ++ o.value.toJson.compact,
    "DISPLAY_JSON:" ++ Json.quote o.value.display] ++ actionLines o.actions

def tierLine (tier : Tier) (names : List String) : String :=
  "TIER:" ++ tier.name ++ "|" ++ (Reply.textsJson names).compact

def helpLines : List String :=
  ["Dice language interpreter", "",
    "exec --program FILE --user NAME --server NAME [--store FILE] [--core-dir DIR] [--config FILE]",
    "view --user NAME --server NAME [--tier all|global|shared|private|core] [--store FILE] " ++
      "[--core-dir DIR] [--config FILE]",
    "serve [--store FILE] [--core-dir DIR] [--config FILE]"]

/-- The lines that a report prints. -/
def lines : Report → List String
  | .outcome o _ => outcomeLines o
  | .names tiers => "RESULT:OK" :: tiers.map fun (tier, bound) => tierLine tier bound
  | .session replies ending =>
    replies.map (fun r => r.toJson.compact) ++
      match ending with
      | some f => faultLines f
      | none => []
  | .fault f => faultLines f
  | .help => helpLines
  | .usage => []

def exitCode : Report → Nat
  | .outcome _ kept => if kept then 0 else 1
  | .names _ => 0
  | .session _ none => 0
  | .session _ (some _) => 1
  | .fault _ => 1
  | .help => 0
  | .usage => 2

end Report

end DiceScript.Command
