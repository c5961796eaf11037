import DiceScript.Node.Codec

/-! # Values

What a program computes with and a store keeps. `undefined` is what an unbound name and an empty
block yield; no operation takes it.
-/

namespace DiceScript

/-- A function: its body is run with its parameters bound to the arguments. -/
structure Function where
  name : String
  params : List String
  body : List Node
  tier : Tier

namespace Function

def arity (f : Function) : Nat := f.params.length

/-- Whether two functions are the same, floats in their bodies being compared as numbers. -/
def sameAs (f g : Function) : Bool :=
  f.name == g.name && f.params == g.params && Node.sameItems f.body g.body && f.tier == g.tier

end Function

inductive Value where
  | integer (n : Int64)
  | float (x : Float)
  | string (s : String)
  | boolean (b : Bool)
  | list (items : List Value)
  | function (f : Function)
  | undefined

/-- What a value is, as its name in messages and documents tells. -/
inductive ValueType where
  | integer | float | string | boolean | list | function | undefined
deriving Repr, DecidableEq, Inhabited

namespace ValueType

def all : List ValueType :=
  [.integer, .float, .string, .boolean, .list, .function, .undefined]

def name : ValueType → String
  | .integer => "integer"
  | .float => "float"
  | .string => "string"
  | .boolean => "boolean"
  | .list => "list"
  | .function => "function"
  | .undefined => "undefined"

def ofName? (s : String) : Option ValueType := all.find? (·.name == s)

end ValueType

namespace Value

instance : Inhabited Value := ⟨.undefined⟩

def type : Value → ValueType
  | .integer _ => .integer
  | .float _ => .float
  | .string _ => .string
  | .boolean _ => .boolean
  | .list _ => .list
  | .function _ => .function
  | .undefined => .undefined

def isUndefined : Value → Bool
  | .undefined => true
  | _ => false

def isNumber : Value → Bool
  | .integer _ => true
  | .float _ => true
  | _ => false

def toInteger? : Value → Option Int64
  | .integer n => some n
  | _ => none

/-- The number that a value is; an integer becomes the float nearest to it. -/
def toNumber? : Value → Option Float
  | .integer n => some (Float.ofInt n.toInt)
  | .float x => some x
  | _ => none

def toBool? : Value → Option Bool
  | .boolean b => some b
  | _ => none

def toText? : Value → Option String
  | .string s => some s
  | _ => none

def toFunction? : Value → Option Function
  | .function f => some f
  | _ => none

mutual

/-- Whether two values are of the same type and the same, floats being compared as numbers. -/
def sameAs : Value → Value → Bool
  | .integer a, .integer b => a == b
  | .float a, .float b => a == b
  | .string a, .string b => a == b
  | .boolean a, .boolean b => a == b
  | .list a, .list b => sameItems a b
  | .function f, .function g => f.sameAs g
  | .undefined, .undefined => true
  | _, _ => false

def sameItems : List Value → List Value → Bool
  | [], [] => true
  | a :: as, b :: bs => sameAs a b && sameItems as bs
  | _, _ => false

end

end Value

end DiceScript
