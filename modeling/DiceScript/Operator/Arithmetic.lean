import DiceScript.Cause
import DiceScript.Number.Binary
import DiceScript.Number.Integer
import DiceScript.Value.Display

/-! # Arithmetic

Two integers give an integer, exact or an overflow. As soon as one operand is a float, both are taken
as floats, and a result that is not finite is refused. Division always gives a float; floored
division and the remainder follow the sign of the divisor.
-/

namespace DiceScript.Operator

def refuse {α : Type} (op : BinaryOp) (l r : Value) : Except Cause α :=
  .error (.operandTypes op l.type r.type)

def numbers? (l r : Value) : Option (Float × Float) :=
  match l.toNumber?, r.toNumber? with
  | some a, some b => some (a, b)
  | _, _ => none

def exact (op : BinaryOp) (n : Int) : Except Cause Value :=
  match Number.fit? n with
  | some n => .ok (.integer n)
  | none => .error (.overflow op)

def finite (op : BinaryOp) (x : Float) : Except Cause Value :=
  if x.isFinite then .ok (.float x) else .error (.notFinite op)

/-! ## Sums, differences, products -/

def arithmetic (op : BinaryOp) (onInt : Int → Int → Int) (onFloat : Float → Float → Float)
    (l r : Value) : Except Cause Value :=
  match l, r with
  | .integer a, .integer b => exact op (onInt a.toInt b.toInt)
  | l, r =>
    match numbers? l r with
    | some (a, b) => finite op (onFloat a b)
    | none => refuse op l r

/-! ## Division -/

def divide (l r : Value) : Except Cause Value :=
  match numbers? l r with
  | none => refuse .div l r
  | some (a, b) => if b == 0.0 then .error .divisionByZero else finite .div (a / b)

/-- The floored quotient of two integers, from the one towards zero: one less where the signs differ
and something is left. -/
def flooredQuotient (a b quotient : Int64) : Int64 :=
  if a % b != 0 && (a < 0) != (b < 0) then quotient - 1 else quotient

/-- What floored division by `b` leaves, from what division towards zero leaves: moved to the side of
the divisor. -/
def flooredRest (b rest : Int64) : Int64 :=
  if rest != 0 && (rest < 0) != (b < 0) then rest + b else rest

def floorDivide (l r : Value) : Except Cause Value :=
  match l, r with
  | .integer a, .integer b =>
    if b = 0 then .error .divisionByZero
    else
      match Number.quotient? a b with
      | none => .error (.overflow .floorDiv)
      | some quotient => .ok (.integer (flooredQuotient a b quotient))
  | l, r =>
    match numbers? l r with
    | none => refuse .floorDiv l r
    | some (a, b) =>
      if b == 0.0 then .error .divisionByZero else finite .floorDiv (a / b).floor

/-- What floored division leaves. Where the quotient of integers does not fit, there is no
remainder. -/
def remainder (l r : Value) : Except Cause Value :=
  match l, r with
  | .integer a, .integer b =>
    if b = 0 then .error .divisionByZero
    else
      match Number.rest? a b with
      | none => .error (.overflow .rem)
      | some rest => .ok (.integer (flooredRest b rest))
  | l, r =>
    match numbers? l r with
    | none => refuse .rem l r
    | some (a, b) =>
      if b == 0.0 then .error .divisionByZero
      else
        let rest := Number.floatRemainder a b
        if rest != 0.0 && (rest < 0.0) != (b < 0.0) then finite .rem (rest + b)
        else finite .rem rest

/-! ## Shifts -/

/-- A shift of an integer by 0 to 63 places; to the right it is a floored division. -/
def shift (op : BinaryOp) (l r : Value) : Except Cause Value :=
  match l, r with
  | .integer value, .integer amount =>
    if amount.toInt < 0 ∨ 63 < amount.toInt then .error (.shiftAmount amount)
    else if op = .shr then .ok (.integer (value >>> amount))
    else exact op (value.toInt <<< amount.toInt.toNat)
  | l, r => refuse op l r

/-! ## Powers and logarithms -/

/-- Multiplies by the base once for each step that is left, while both the exponent and the limit
allow. -/
def powerSteps (limit : UInt64) (base : Int64) :
    (exponent room : Nat) → Int64 → Except Cause Int64
  | 0, _, product => .ok product
  | _ + 1, 0, _ => .error (.timeout .exponentiation limit)
  | exponent + 1, room + 1, product =>
    match Number.fit? (product.toInt * base.toInt) with
    | some product => powerSteps limit base exponent room product
    | none => .error (.overflow .pow)

def floatPower (limit : UInt64) (base exponent : Value) : Except Cause Value :=
  match numbers? base exponent with
  | none => refuse .pow base exponent
  | some (b, e) =>
    if b == 0.0 && e ≤ 0.0 then .error (.zeroPower exponent.display)
    else if limit.toNat = 0 then .error (.timeout .exponentiation limit)
    else finite .pow (b ^ e)

/-- A power: of integers with an exponent that is not negative by repeated multiplication, otherwise
of floats. -/
def power (limit : UInt64) (base exponent : Value) : Except Cause Value :=
  match base, exponent with
  | .integer b, .integer e =>
    if e.toInt < 0 then floatPower limit base exponent
    else if b.toInt = 0 ∧ e.toInt = 0 then .error (.zeroPower "0")
    else (powerSteps limit b e.toInt.toNat limit.toNat 1).map .integer
  | base, exponent => floatPower limit base exponent

/-- The logarithm of a number to a base. It counts as one step. -/
def logarithm (limit : UInt64) (number base : Value) : Except Cause Value :=
  match numbers? number base with
  | none => refuse .log number base
  | some (v, b) =>
    if v ≤ 0.0 || b ≤ 0.0 then .error .logOperands
    else if b == 1.0 then .error .logBase
    else if limit.toNat = 0 then .error (.timeout .exponentiation limit)
    else finite .log (v.log / b.log)

end DiceScript.Operator
