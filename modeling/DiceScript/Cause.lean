import DiceScript.Failure
import DiceScript.Value.Basic

/-! # Why a run fails

Every way in which running a program, or writing to the store, can fail, with what the message has
to tell. `failure` gives each its kind and its wording.
-/

namespace DiceScript

/-- The constructs that count their steps. -/
inductive Guarded where
  | whileLoop
  | doWhileLoop
  | exponentiation
  | diceRoll
deriving Repr, DecidableEq, Inhabited

def Guarded.kind : Guarded → FailureKind
  | .whileLoop => .whileLoopTimeout
  | .doWhileLoop => .doWhileLoopTimeout
  | .exponentiation => .exponentiationTimeout
  | .diceRoll => .diceRollTimeout

inductive DieParameter where
  | count
  | sides
deriving Repr, DecidableEq, Inhabited

def DieParameter.name : DieParameter → String
  | .count => "count"
  | .sides => "sides"

/-- Why a run fails. -/
inductive Cause where
  /-- A guarded construct gave up after so many steps. -/
  | timeout (what : Guarded) (iterations : UInt64)
  /-- A name that was read is bound nowhere. -/
  | missing (name : String)
  /-- A node of this kind was used as an operand and yielded nothing. -/
  | noValue (kind : String)
  | conditionType (type : ValueType)
  /-- An operator does not take operands of these types. -/
  | operandTypes (op : BinaryOp) (left right : ValueType)
  | operandType (op : UnaryOp) (type : ValueType)
  /-- The exact result does not fit 64 bits. -/
  | overflow (op : BinaryOp)
  | negationOverflow
  | divisionByZero
  /-- The result is an infinity or not a number. -/
  | notFinite (op : BinaryOp)
  /-- One of two compared numbers is not a number. -/
  | unordered
  | shiftAmount (amount : Int64)
  /-- Zero was raised to an exponent with this text. -/
  | zeroPower (exponent : String)
  | logOperands
  | logBase
  | dieType (parameter : DieParameter) (type : ValueType)
  | negativeCount (count : Int64)
  | tooFewSides (sides : Int64)
  | diceOverflow
  /-- A write to the core tier. -/
  | readOnly (name : String)
  | defineInCore (name : String)
  | repeatedParameter (parameter name : String)
  | alreadyDefined (name : String) (tier : Tier)
  | notAFunction (name : String) (type : ValueType)
  | arity (name : String) (expected given : Nat)
  | callDepth (limit : UInt64) (name : String)
deriving Repr, DecidableEq, Inhabited

namespace Cause

def kind : Cause → FailureKind
  | .timeout what _ => what.kind
  | .missing _ => .missingIdentifier
  | .readOnly _ => .privilegeError
  | .defineInCore _ => .definitionError
  | .repeatedParameter .. => .definitionError
  | .alreadyDefined .. => .definitionError
  | .notAFunction .. => .callError
  | .arity .. => .callError
  | .callDepth .. => .callError
  | _ => .operationError

def inQuotes (s : String) : String := "\"" ++ s ++ "\""

def message : Cause → String
  | .timeout what n => (Failure.timeout what.kind n).message
  | .missing name => (Failure.missing name).message
  | .noValue kind => kind ++ " produced no value."
  | .conditionType t => "Condition must be a boolean, got " ++ t.name ++ "."
  | .operandTypes op l r =>
    "Cannot apply " ++ inQuotes op.symbol ++ " to " ++ l.name ++ " and " ++ r.name ++ "."
  | .operandType op t => "Cannot apply unary " ++ inQuotes op.symbol ++ " to " ++ t.name ++ "."
  | .overflow op => "Integer overflow in " ++ inQuotes op.symbol ++ "."
  | .negationOverflow => "Integer overflow in " ++ inQuotes "-" ++ "."
  | .divisionByZero => "Division by zero."
  | .notFinite op => inQuotes op.symbol ++ " produced a non-finite number."
  | .unordered => "Cannot order NaN."
  | .shiftAmount n =>
    "Shift amount must be between 0 and 63, got " ++ toString n.toInt ++ "."
  | .zeroPower e => "0 ** " ++ e ++ " is undefined."
  | .logOperands => "Logarithms need positive operands."
  | .logBase => "Logarithm base cannot be 1."
  | .dieType p t => "Dice " ++ p.name ++ " must be an integer, got " ++ t.name ++ "."
  | .negativeCount n => "Cannot roll a negative number of dice (" ++ toString n.toInt ++ ")."
  | .tooFewSides n => "Dice need at least one side, got " ++ toString n.toInt ++ "."
  | .diceOverflow => "Dice total overflowed."
  | .readOnly name => "Cannot modify " ++ inQuotes name ++ ": the core tier is read-only."
  | .defineInCore name => "Cannot define " ++ inQuotes name ++ " in the core tier."
  | .repeatedParameter p name =>
    "Parameter " ++ inQuotes p ++ " appears more than once in " ++ inQuotes name ++ "."
  | .alreadyDefined name t =>
    "Function " ++ inQuotes name ++ " is already defined in the " ++ t.name ++ " tier."
  | .notAFunction name t => inQuotes name ++ " is a " ++ t.name ++ ", not a function."
  | .arity name expected given =>
    inQuotes name ++ " expects " ++ toString expected ++ " argument(s), got " ++ toString given ++
      "."
  | .callDepth limit name =>
    "Call depth exceeded " ++ toString limit.toNat ++ " while calling " ++ inQuotes name ++ "."

def iterations : Cause → Option UInt64
  | .timeout _ n => some n
  | _ => none

/-- The failure that a cause is reported as, after some logged actions. -/
def failure (c : Cause) (actions : List String) : Failure :=
  { kind := c.kind, message := c.message, iterations := c.iterations, actions }

end Cause

end DiceScript
