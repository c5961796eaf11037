import DiceScript.Json.Basic
import DiceScript.Number.Layout

/-! # Writing JSON text

One renderer for two layouts: `compact` puts nothing between tokens, `pretty` puts every item and
member on a line of its own, two spaces further in at each level. An empty array or object has
nothing between its brackets in either.
-/

namespace DiceScript.Json

/-! ## Tokens -/

/-- Numbers keep a point when they are floats. They have no exponent from a hundred thousandth up to
below ten to the sixteenth, and an exact tie goes to the even digit. -/
def numberLayout : Number.Layout where
  tie := .toEven
  positional e := -5 ≤ e && e < 16
  pointed _ := true

def hexDigit (n : Nat) : Char := Nat.digitChar n

def escapeChar (c : Char) : List Char :=
  if c = '"' then ['\\', '"']
  else if c = '\\' then ['\\', '\\']
  else if c = '\x08' then ['\\', 'b']
  else if c = '\x0c' then ['\\', 'f']
  else if c = '\n' then ['\\', 'n']
  else if c = '\r' then ['\\', 'r']
  else if c = '\t' then ['\\', 't']
  else if c.toNat < 0x20 then
    ['\\', 'u', '0', '0', hexDigit (c.toNat / 16), hexDigit (c.toNat % 16)]
  else [c]

def stringText (s : String) : List Char := '"' :: s.toList.flatMap escapeChar ++ ['"']

/-- A float; what is not finite has no number to write. -/
def floatText (x : Float) : List Char :=
  if x.isFinite then Number.floatText numberLayout x else "null".toList

/-! ## Documents -/

/-- What stands between tokens. -/
structure Spacing where
  /-- Before an item or a closing bracket at this level. -/
  line : Nat → List Char
  /-- Between a name and its value. -/
  colon : List Char

def compactSpacing : Spacing := ⟨fun _ => [], [':']⟩

def prettySpacing : Spacing := ⟨fun level => '\n' :: List.replicate (2 * level) ' ', [':', ' ']⟩

mutual

/-- The text of a document whose brackets stand at `level`. -/
def render (s : Spacing) (level : Nat) : Json → List Char
  | .null => "null".toList
  | .bool true => "true".toList
  | .bool false => "false".toList
  | .int n => Number.intText n
  | .float x => floatText x
  | .str t => stringText t
  | .arr [] => ['[', ']']
  | .arr (j :: rest) =>
    '[' :: s.line (level + 1) ++ render s (level + 1) j ++ renderItems s (level + 1) rest ++
      s.line level ++ [']']
  | .obj [] => ['\x7b', '\x7d']
  | .obj ((name, j) :: rest) =>
    '\x7b' :: s.line (level + 1) ++ stringText name ++ s.colon ++ render s (level + 1) j ++
      renderMembers s (level + 1) rest ++ s.line level ++ ['\x7d']
  | .unreadable => "null".toList

def renderItems (s : Spacing) (level : Nat) : List Json → List Char
  | [] => []
  | j :: rest => ',' :: s.line level ++ render s level j ++ renderItems s level rest

def renderMembers (s : Spacing) (level : Nat) : List (String × Json) → List Char
  | [] => []
  | (name, j) :: rest =>
    ',' :: s.line level ++ stringText name ++ s.colon ++ render s level j ++
      renderMembers s level rest

end

def compact (j : Json) : String := String.ofList (render compactSpacing 0 j)

def pretty (j : Json) : String := String.ofList (render prettySpacing 0 j)

def quote (s : String) : String := String.ofList (stringText s)

end DiceScript.Json
