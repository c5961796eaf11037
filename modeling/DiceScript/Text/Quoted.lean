import DiceScript.Text.Printable
import DiceScript.Text.Extender

/-! # Quoted text

How a string is shown inside a list: between double quotes, with a backslash before a quote and a
backslash, short escapes for the four common controls, and the code point in braces for every
character that would not show or would attach to its neighbour.
-/

namespace DiceScript.Text

/-- The digits of a code point in lower-case hexadecimal, without padding. -/
def hexDigits (n : Nat) : List Char := Nat.toDigits 16 n

def quoteChar (c : Char) : List Char :=
  if c = '"' then ['\\', '"']
  else if c = '\\' then ['\\', '\\']
  else if c = '\n' then ['\\', 'n']
  else if c = '\r' then ['\\', 'r']
  else if c = '\t' then ['\\', 't']
  else if c = '\x00' then ['\\', '0']
  else if isExtender c || !isPrintable c then
    ['\\', 'u', '\x7b'] ++ hexDigits c.toNat ++ ['\x7d']
  else [c]

/-- A text between double quotes, from which the text can be told. -/
def quoted (s : String) : List Char :=
  '"' :: s.toList.flatMap quoteChar ++ ['"']

end DiceScript.Text
