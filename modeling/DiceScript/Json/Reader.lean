import DiceScript.Json.Basic
import DiceScript.Number.Shortest

/-! # Reading JSON text

A strict reader: one document with blanks around it and nothing else. Blanks are space, tab, line
feed and carriage return. Strings hold no raw control character. A number has no leading zero and no
sign but a minus. Every function takes the text that is left and returns what is left after it.

The grammar alone is checked here; how deep a document may be and whether all of it denotes
something is up to what it is read as.
-/

namespace DiceScript.Json

/-! ## Blanks -/

/-- Whether a character may stand between two tokens. -/
def isGap (c : Char) : Bool := c = ' ' || c = '\n' || c = '\t' || c = '\r'

def skipGap (cs : List Char) : List Char := cs.dropWhile isGap

/-! ## Numbers -/

def digitValue (c : Char) : Nat := c.toNat - '0'.toNat

def natOfDigits (ds : List Char) : Nat := ds.foldl (fun n d => 10 * n + digitValue d) 0

/-- The float nearest to `± digits · 10 ^ exponent`; none when it is beyond the range. The bounds
keep the powers of ten small: above the first a number is out of range, below the second it is
nearer to zero than to any float. -/
def floatOfDecimal? (negative : Bool) (digits : Nat) (exponent : Int) : Option Float :=
  let top := (Number.digitCount digits : Int) + exponent
  let magnitude? : Option Float :=
    if digits == 0 || top < -400 then some 0.0
    else if 400 < top then none
    else
      let x := Float.ofScientific digits (exponent < 0) exponent.natAbs
      if x.isFinite then some x else none
  magnitude?.map fun x => if negative then -x else x

/-- A token without a point and an exponent: an integer when 64 bits hold it, and negative zero is
no integer. -/
def ofWhole (negative : Bool) (n : Nat) : Json :=
  let asFloat := match floatOfDecimal? negative n 0 with
    | some x => .float x
    | none => .unreadable
  if negative then
    if n == 0 || 9223372036854775808 < n then asFloat else .int (-(n : Int))
  else if n < UInt64.size then .int n else asFloat

def spanDigits (cs : List Char) : List Char × List Char :=
  (cs.takeWhile Char.isDigit, cs.dropWhile Char.isDigit)

/-- The digits after a point, none when there is no point; a point needs a digit after it. -/
def readFraction : List Char → Option (Option (List Char) × List Char)
  | '.' :: rest =>
    let (ds, rest) := spanDigits rest
    if ds.isEmpty then none else some (some ds, rest)
  | cs => some (none, cs)

def readPower (cs : List Char) : Option (Int × List Char) :=
  let (negative, cs) := match cs with
    | '-' :: rest => (true, rest)
    | '+' :: rest => (false, rest)
    | cs => (false, cs)
  let (ds, rest) := spanDigits cs
  if ds.isEmpty then none
  else
    let n : Int := natOfDigits ds
    some (if negative then -n else n, rest)

def readExponent : List Char → Option (Option Int × List Char)
  | 'e' :: rest => (readPower rest).map fun (n, rest) => (some n, rest)
  | 'E' :: rest => (readPower rest).map fun (n, rest) => (some n, rest)
  | cs => some (none, cs)

def readMagnitude (negative : Bool) (cs : List Char) : Option (Json × List Char) :=
  let (whole, rest) := spanDigits cs
  match whole with
  | [] => none
  | '0' :: _ :: _ => none
  | whole =>
    match readFraction rest with
    | none => none
    | some (fraction, rest) =>
      match readExponent rest with
      | none => none
      | some (power, rest) =>
        match fraction, power with
        | none, none => some (ofWhole negative (natOfDigits whole), rest)
        | fraction, power =>
          let fraction := fraction.getD []
          let exponent := power.getD 0 - fraction.length
          match floatOfDecimal? negative (natOfDigits (whole ++ fraction)) exponent with
          | some x => some (.float x, rest)
          | none => some (.unreadable, rest)

def readNumber : List Char → Option (Json × List Char)
  | '-' :: rest => readMagnitude true rest
  | cs => readMagnitude false cs

/-! ## Strings -/

/-- A piece of a string: a character, or the number of a `\u` escape. -/
inductive Piece where
  | char (c : Char)
  | unit (n : Nat)

def hexValue? (c : Char) : Option Nat :=
  if c.isDigit then some (c.toNat - '0'.toNat)
  else if 'a' ≤ c ∧ c ≤ 'f' then some (c.toNat - 'a'.toNat + 10)
  else if 'A' ≤ c ∧ c ≤ 'F' then some (c.toNat - 'A'.toNat + 10)
  else none

def hexValue4? (a b c d : Char) : Option Nat :=
  match hexValue? a, hexValue? b, hexValue? c, hexValue? d with
  | some a, some b, some c, some d => some (((a * 16 + b) * 16 + c) * 16 + d)
  | _, _, _, _ => none

def shortEscape? (c : Char) : Option Char :=
  if c = '"' then some '"'
  else if c = '\\' then some '\\'
  else if c = '/' then some '/'
  else if c = 'b' then some '\x08'
  else if c = 'f' then some '\x0c'
  else if c = 'n' then some '\n'
  else if c = 'r' then some '\r'
  else if c = 't' then some '\t'
  else none

/-- The pieces of a string after its opening quote, in front of those already found in reverse. -/
def readPieces (found : List Piece) : List Char → Option (List Piece × List Char)
  | [] => none
  | '"' :: rest => some (found.reverse, rest)
  | '\\' :: 'u' :: a :: b :: c :: d :: rest =>
    match hexValue4? a b c d with
    | some n => readPieces (.unit n :: found) rest
    | none => none
  | '\\' :: c :: rest =>
    match shortEscape? c with
    | some c => readPieces (.char c :: found) rest
    | none => none
  | c :: rest => if c.toNat < 0x20 || c = '\\' then none else readPieces (.char c :: found) rest

/-- Whether a number is the first half of a surrogate pair. -/
def isHighHalf (n : Nat) : Bool := 0xd800 ≤ n && n < 0xdc00

def isLowHalf (n : Nat) : Bool := 0xdc00 ≤ n && n < 0xe000

/-- The characters of pieces, after those already found in reverse; none when half of a surrogate
pair stands alone. -/
def joinPieces (found : List Char) : List Piece → Option (List Char)
  | [] => some found.reverse
  | .char c :: rest => joinPieces (c :: found) rest
  | .unit high :: .unit low :: rest =>
    if isHighHalf high then
      if isLowHalf low then
        joinPieces (Char.ofNat (0x10000 + (high - 0xd800) * 0x400 + (low - 0xdc00)) :: found) rest
      else none
    else if isLowHalf high then none
    else joinPieces (Char.ofNat high :: found) (.unit low :: rest)
  | .unit n :: rest =>
    if isHighHalf n || isLowHalf n then none else joinPieces (Char.ofNat n :: found) rest

/-- A string after its opening quote; the text is none when it has half of a surrogate pair. -/
def readString (cs : List Char) : Option (Option String × List Char) :=
  (readPieces [] cs).map fun (pieces, rest) => ((joinPieces [] pieces).map String.ofList, rest)

/-! ## Documents -/

/-- An object of members found in reverse, unreadable when one of their names is. -/
def ofMembers? : Option (List (String × Json)) → Json
  | some found => .obj found.reverse
  | none => .unreadable

mutual

def readValue : (fuel : Nat) → List Char → Option (Json × List Char)
  | 0, _ => none
  | fuel + 1, cs =>
    match skipGap cs with
    | 'n' :: 'u' :: 'l' :: 'l' :: rest => some (.null, rest)
    | 't' :: 'r' :: 'u' :: 'e' :: rest => some (.bool true, rest)
    | 'f' :: 'a' :: 'l' :: 's' :: 'e' :: rest => some (.bool false, rest)
    | '"' :: rest =>
      (readString rest).map fun (s, rest) =>
        (match s with
          | some s => .str s
          | none => .unreadable, rest)
    | '[' :: rest =>
      match skipGap rest with
      | ']' :: rest => some (.arr [], rest)
      | rest => readItems fuel [] rest
    | '\x7b' :: rest =>
      match skipGap rest with
      | '\x7d' :: rest => some (.obj [], rest)
      | rest => readMembers fuel (some []) rest
    | cs => readNumber cs

/-- The items of an array up to its end, after those already found in reverse. -/
def readItems : (fuel : Nat) → List Json → List Char → Option (Json × List Char)
  | 0, _, _ => none
  | fuel + 1, found, cs =>
    match readValue fuel cs with
    | none => none
    | some (v, rest) =>
      match skipGap rest with
      | ',' :: rest => readItems fuel (v :: found) rest
      | ']' :: rest => some (.arr (v :: found).reverse, rest)
      | _ => none

def readMembers : (fuel : Nat) → Option (List (String × Json)) → List Char →
    Option (Json × List Char)
  | 0, _, _ => none
  | fuel + 1, found, cs =>
    match skipGap cs with
    | '"' :: rest =>
      match readString rest with
      | none => none
      | some (name, rest) =>
        match skipGap rest with
        | ':' :: rest =>
          match readValue fuel rest with
          | none => none
          | some (v, rest) =>
            let found := match name, found with
              | some name, some found => some ((name, v) :: found)
              | _, _ => none
            match skipGap rest with
            | ',' :: rest => readMembers fuel found rest
            | '\x7d' :: rest => some (ofMembers? found, rest)
            | _ => none
        | _ => none
    | _ => none

end

/-- Enough fuel for any document of this text: a step into an array or an object takes two and its
bracket is a character, a further item takes one and its comma is a character. -/
def fuelFor (cs : List Char) : Nat := 2 * cs.length + 2

/-- The document that a text holds. -/
def parse? (s : String) : Option Json :=
  let cs := s.toList
  match readValue (fuelFor cs) cs with
  | some (j, rest) => if (skipGap rest).isEmpty then some j else none
  | none => none

end DiceScript.Json
