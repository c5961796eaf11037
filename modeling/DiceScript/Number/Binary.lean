/-! # The exact value of a float

A finite float is `± mantissa · 2 ^ exponent`. What has to be exact — the fewest digits that read
back, a remainder — is worked out on these parts in whole numbers.
-/

namespace DiceScript.Number

/-- The number `± mantissa · 2 ^ exponent`. -/
structure Binary where
  negative : Bool
  mantissa : Nat
  exponent : Int
deriving Repr, DecidableEq

namespace Binary

abbrev fractions : Nat := 4503599627370496

/-- The parts of a finite float, with the mantissa below `2 ^ 53`. -/
def ofFloat (x : Float) : Binary :=
  let bits : Nat := x.toBits.toNat
  let fraction : Nat := bits % fractions
  let power : Nat := bits / fractions % 2048
  let negative := bits / fractions / 2048 == 1
  if power == 0 then ⟨negative, fraction, -1074⟩
  else ⟨negative, fraction + fractions, (power : Int) - 1075⟩

/-- The float of these parts, when the mantissa has at most 53 bits and the value is in range. -/
def toFloat (b : Binary) : Float :=
  let magnitude := Float.scaleB (Float.ofNat b.mantissa) b.exponent
  if b.negative then -magnitude else magnitude

/-- Half the distance to the next smaller float is only half of that to the next greater one when
the mantissa is the least of its power and there is a smaller power. -/
def isLeastOfPower (b : Binary) : Bool :=
  b.mantissa == fractions && b.exponent > -1074

end Binary

/-- The remainder of `a` by a `b` other than zero: what is left of `a` after taking `b` a whole
number of times, with the sign of `a`. It is a float, so nothing is rounded. An infinity has no
remainder, and by an infinity a finite `a` is left whole. -/
def floatRemainder (a b : Float) : Float :=
  if !a.isFinite || b.isNaN then 0.0 / 0.0
  else if b.isInf then a
  else
    let x := Binary.ofFloat a
    let y := Binary.ofFloat b
    let low := min x.exponent y.exponent
    let dividend := x.mantissa <<< (x.exponent - low).toNat
    let divisor := y.mantissa <<< (y.exponent - low).toNat
    Binary.toFloat ⟨x.negative, dividend % divisor, low⟩

end DiceScript.Number
