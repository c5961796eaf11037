import DiceScript.Value.Basic
import DiceScript.Number.Layout
import DiceScript.Text.Quoted

/-! # Values as text

The text that `print` logs and that a string takes up when a value is appended to it. A string shows
as it is, but between quotes inside a list.
-/

namespace DiceScript.Value

/-- Floats never have an exponent; whole ones below ten to the sixteenth end in `.0`, and an exact
tie between two shortest decimals goes up. -/
def numberLayout : Number.Layout where
  tie := .up
  positional _ := true
  pointed e := e < 16

def floatText (x : Float) : List Char :=
  if x.isFinite then Number.floatText numberLayout x
  else if x.isNaN then "NaN".toList
  else if x < 0 then "-inf".toList
  else "inf".toList

def functionText (f : Function) : List Char :=
  "<function ".toList ++ f.name.toList ++ '(' :: (", ".intercalate f.params).toList ++ [')', '>']

mutual

def itemText : Value → List Char
  | .integer n => Number.intText n.toInt
  | .float x => floatText x
  | .string s => Text.quoted s
  | .boolean b => if b then "true".toList else "false".toList
  | .list [] => ['[', ']']
  | .list (v :: rest) => '[' :: itemText v ++ furtherText rest
  | .function f => functionText f
  | .undefined => "undefined".toList

def furtherText : List Value → List Char
  | [] => [']']
  | v :: rest => ',' :: ' ' :: itemText v ++ furtherText rest

end

/-- The text of a value. -/
def display : Value → String
  | .string s => s
  | v => String.ofList (itemText v)

end DiceScript.Value
