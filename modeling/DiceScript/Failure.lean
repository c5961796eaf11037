import DiceScript.Json.Record

/-! # Failures

What a run reports when it cannot go on: a kind, a message, the number of steps after which a
guarded construct gave up, and the actions logged until then. Kinds fall into families.
-/

namespace DiceScript

/-- The kinds of failures. -/
inductive FailureKind where
  | whileLoopTimeout
  | doWhileLoopTimeout
  | exponentiationTimeout
  | diceRollTimeout
  | definitionError
  | callError
  | operationError
  | privilegeError
  | storageError
  | missingIdentifier
deriving Repr, DecidableEq, Inhabited

inductive FailureFamily where
  | executionTimeout
  | functionError
  | operationError
  | storageError
  | missingIdentifier
deriving Repr, DecidableEq, Inhabited

def FailureFamily.name : FailureFamily → String
  | .executionTimeout => "ExecutionTimeout"
  | .functionError => "FunctionError"
  | .operationError => "OperationError"
  | .storageError => "StorageError"
  | .missingIdentifier => "MissingIdentifier"

namespace FailureKind

def all : List FailureKind :=
  [.whileLoopTimeout, .doWhileLoopTimeout, .exponentiationTimeout, .diceRollTimeout,
    .definitionError, .callError, .operationError, .privilegeError, .storageError,
    .missingIdentifier]

def code : FailureKind → String
  | .whileLoopTimeout => "WhileLoopTimeout"
  | .doWhileLoopTimeout => "DoWhileLoopTimeout"
  | .exponentiationTimeout => "ExponentiationTimeout"
  | .diceRollTimeout => "DiceRollTimeout"
  | .definitionError => "DefinitionError"
  | .callError => "CallError"
  | .operationError => "OperationError"
  | .privilegeError => "PrivilegeError"
  | .storageError => "StorageError"
  | .missingIdentifier => "MissingIdentifier"

def ofCode? (s : String) : Option FailureKind := all.find? (·.code == s)

def family : FailureKind → FailureFamily
  | .whileLoopTimeout => .executionTimeout
  | .doWhileLoopTimeout => .executionTimeout
  | .exponentiationTimeout => .executionTimeout
  | .diceRollTimeout => .executionTimeout
  | .definitionError => .functionError
  | .callError => .functionError
  | .operationError => .operationError
  | .privilegeError => .storageError
  | .storageError => .storageError
  | .missingIdentifier => .missingIdentifier

def isTimeout (k : FailureKind) : Bool := k.family == .executionTimeout

def construct : FailureKind → String
  | .whileLoopTimeout => "while loop"
  | .doWhileLoopTimeout => "do-while loop"
  | .exponentiationTimeout => "exponentiation"
  | .diceRollTimeout => "dice roll"
  | _ => "guarded construct"

def toJson (k : FailureKind) : Json := .str k.code

def ofJson? (scope : Json.Scope) (j : Json) : Option FailureKind :=
  (Json.toName? scope j).bind ofCode?

end FailureKind

/-- A failure as it is reported. -/
structure Failure where
  kind : FailureKind
  message : String
  /-- The steps after which a guarded construct gave up. -/
  iterations : Option UInt64 := none
  /-- What had been logged until then. -/
  actions : List String := []
deriving Repr, DecidableEq, Inhabited

namespace Failure

def timeout (kind : FailureKind) (iterations : UInt64) : Failure :=
  { kind, iterations := some iterations
    message := kind.construct ++ " gave up after " ++ toString iterations.toNat ++ " iterations." }

def missing (name : String) : Failure :=
  { kind := .missingIdentifier, message := "\"" ++ name ++ "\" is not defined." }

def display (f : Failure) : String := f.kind.code ++ ": " ++ f.message

end Failure

end DiceScript
