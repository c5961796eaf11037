import DiceScript.Number.Shortest

/-! # Writing numbers

Where the digits of a decimal go. A `Layout` holds the choices of one format: which way an exact tie
between two shortest decimals goes, which magnitudes are written with a point and without an
exponent, and up to which magnitude a whole number keeps `.0`.
-/

namespace DiceScript.Number

/-- The choices of a decimal format. Magnitudes are powers of ten of the leading digit. -/
structure Layout where
  tie : Tie
  /-- Whether a number of this magnitude is written without an exponent. -/
  positional : Int → Bool
  /-- Whether a whole number of this magnitude, written without an exponent, ends in `.0`. -/
  pointed : Int → Bool

def natText (n : Nat) : List Char := Nat.toDigits 10 n

def intText : Int → List Char
  | .ofNat n => natText n
  | .negSucc n => '-' :: natText (n + 1)

/-- A decimal with a point and no exponent. -/
def positionalText (pointed : Bool) (d : Decimal) : List Char :=
  let digits := natText d.digits
  let point := (digits.length : Int) + d.exponent
  if point ≤ 0 then '0' :: '.' :: (List.replicate (-point).toNat '0' ++ digits)
  else if 0 ≤ d.exponent then
    digits ++ List.replicate d.exponent.toNat '0' ++ (if pointed then ['.', '0'] else [])
  else digits.take point.toNat ++ '.' :: digits.drop point.toNat

/-- A decimal with one digit before the point and a signed exponent. -/
def scientificText (d : Decimal) : List Char :=
  let digits := natText d.digits
  let power := (digits.length : Int) + d.exponent - 1
  digits.take 1 ++ (if digits.length > 1 then '.' :: digits.drop 1 else []) ++
    'e' :: (if power < 0 then '-' else '+') :: natText power.natAbs

def floatText (l : Layout) (x : Float) : List Char :=
  let b := Binary.ofFloat x
  let sign := if b.negative then ['-'] else []
  if b.mantissa == 0 then sign ++ ['0', '.', '0']
  else
    let d := shortest l.tie b
    let magnitude := (digitCount d.digits : Int) + d.exponent - 1
    sign ++ if l.positional magnitude then positionalText (l.pointed magnitude) d
      else scientificText d

end DiceScript.Number
