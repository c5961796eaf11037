import DiceScript.Operator.Comparison
import DiceScript.Options

/-! # Applying operators

`binary` and `unary` give the value of an operator on operands, or the cause why there is none.
-/

namespace DiceScript.Operator

/-- A value appended to a text or a list; two lists are joined. -/
def concat : Value → Value → Except Cause Value
  | .string s, v => .ok (.string (s ++ v.display))
  | .list items, .list more => .ok (.list (items ++ more))
  | .list items, v => .ok (.list (items ++ [v]))
  | l, r => refuse .concat l r

def binary (limits : Limits) (op : BinaryOp) (l r : Value) : Except Cause Value :=
  match op with
  | .or => logical op (· || ·) l r
  | .xor => logical op (· != ·) l r
  | .and => logical op (· && ·) l r
  | .eq => equality op false l r
  | .ne => equality op true l r
  | .gt => ordering op (· == .gt) l r
  | .ge => ordering op (· != .lt) l r
  | .le => ordering op (· != .gt) l r
  | .lt => ordering op (· == .lt) l r
  | .shl => shift op l r
  | .shr => shift op l r
  | .add => arithmetic op (· + ·) (· + ·) l r
  | .sub => arithmetic op (· - ·) (· - ·) l r
  | .mul => arithmetic op (· * ·) (· * ·) l r
  | .div => divide l r
  | .floorDiv => floorDivide l r
  | .rem => remainder l r
  | .concat => concat l r
  | .pow => power limits.maxExponentSteps l r
  | .log => logarithm limits.maxExponentSteps l r

def unary (op : UnaryOp) (v : Value) : Except Cause Value :=
  match op, v with
  | .not, .boolean b => .ok (.boolean !b)
  | .neg, .integer n =>
    match Number.fit? (-n.toInt) with
    | some n => .ok (.integer n)
    | none => .error .negationOverflow
  | .neg, .float x => .ok (.float (-x))
  | .identity, .integer n => .ok (.integer n)
  | .identity, .float x => .ok (.float x)
  | op, v => .error (.operandType op v.type)

end DiceScript.Operator
