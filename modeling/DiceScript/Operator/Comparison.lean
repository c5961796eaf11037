import DiceScript.Operator.Arithmetic

/-! # Truth and comparison

`eq` and `ne` compare two numbers, two strings, two truth values or two lists; within lists anything
may meet anything, and what cannot be compared is unequal. The orders compare two numbers or two
strings. Two integers are compared exactly, an integer and a float as floats.
-/

namespace DiceScript.Operator

def logical (op : BinaryOp) (f : Bool → Bool → Bool) (l r : Value) : Except Cause Value :=
  match l, r with
  | .boolean a, .boolean b => .ok (.boolean (f a b))
  | l, r => refuse op l r

/-! ## Equality -/

mutual

/-- Whether two values count as equal: numbers by their value, lists item by item. -/
def equal : Value → Value → Bool
  | .integer a, .integer b => a == b
  | .list a, .list b => equalItems a b
  | l, r =>
    match numbers? l r with
    | some (a, b) => a == b
    | none => l.sameAs r

def equalItems : List Value → List Value → Bool
  | [], [] => true
  | a :: as, b :: bs => equal a b && equalItems as bs
  | _, _ => false

end

def comparable : Value → Value → Bool
  | .string _, .string _ => true
  | .boolean _, .boolean _ => true
  | .list _, .list _ => true
  | l, r => l.isNumber && r.isNumber

/-- Equality, or with `negated` its opposite. -/
def equality (op : BinaryOp) (negated : Bool) (l r : Value) : Except Cause Value :=
  if comparable l r then .ok (.boolean (equal l r != negated)) else refuse op l r

/-! ## Order -/

/-- The order of two floats, none when one of them is not a number. -/
def floatOrder? (a b : Float) : Option Ordering :=
  if a < b then some .lt
  else if b < a then some .gt
  else if a == b then some .eq
  else none

/-- The order of two texts, by code point. -/
def textOrder (a b : String) : Ordering :=
  if a < b then .lt else if a = b then .eq else .gt

def intOrder (a b : Int64) : Ordering :=
  if a.toInt < b.toInt then .lt else if a.toInt = b.toInt then .eq else .gt

/-- An order between two numbers or two strings, decided by `accept`. -/
def ordering (op : BinaryOp) (accept : Ordering → Bool) (l r : Value) : Except Cause Value :=
  match l, r with
  | .integer a, .integer b => .ok (.boolean (accept (intOrder a b)))
  | .string a, .string b => .ok (.boolean (accept (textOrder a b)))
  | l, r =>
    match numbers? l r with
    | none => refuse op l r
    | some (a, b) =>
      match floatOrder? a b with
      | some order => .ok (.boolean (accept order))
      | none => .error .unordered

end DiceScript.Operator
