import DiceScript.Number.Binary

/-! # The fewest digits that read back

Every real between two bounds around a float rounds to that float. Among the decimals in that
interval the ones with the fewest digits are looked for on grids of 1, 2, … 17 digits: on each grid
only the two neighbours of the value need a test. Of two neighbours that both read back the nearer
is taken; which of two equally near ones is the caller's choice.
-/

namespace DiceScript.Number

structure Decimal where
  digits : Nat
  exponent : Int
deriving Repr, DecidableEq

inductive Tie where
  | toEven
  | up
deriving Repr, DecidableEq

/-- The number of decimal digits of `n`, one for zero. -/
def digitCount (n : Nat) : Nat := (Nat.toDigits 10 n).length

/-- A value `p / q` with the ends of the interval of numbers that round to it, over the same `q`. -/
structure Interval where
  low : Nat
  value : Nat
  high : Nat
  unit : Nat
  closed : Bool

namespace Interval

/-- The interval of a float other than zero, sign apart. The ends belong to it when the mantissa is
even. -/
def ofBinary (b : Binary) : Interval :=
  let shift := b.exponent - 2
  let scale := 1 <<< shift.toNat
  { low := (4 * b.mantissa - if b.isLeastOfPower then 1 else 2) * scale
    value := 4 * b.mantissa * scale
    high := (4 * b.mantissa + 2) * scale
    unit := 1 <<< (-shift).toNat
    closed := b.mantissa % 2 == 0 }

def leading (i : Interval) : Int :=
  let guess := (digitCount i.value : Int) - digitCount i.unit
  if i.value * Nat.pow 10 (-guess).toNat < i.unit * Nat.pow 10 guess.toNat then guess - 1 else guess

def onGrid (i : Interval) (k : Int) : Interval :=
  let up := Nat.pow 10 (-k).toNat
  { i with low := i.low * up, value := i.value * up, high := i.high * up
           unit := i.unit * Nat.pow 10 k.toNat }

def holds (i : Interval) (d : Nat) : Bool :=
  let x := d * i.unit
  if i.closed then i.low ≤ x && x ≤ i.high else i.low < x && x < i.high

/-- The whole number of units in the interval that is nearest to the value, if one of the value's
two neighbours is in it. -/
def nearest? (i : Interval) (tie : Tie) : Option Nat :=
  let below := i.value / i.unit
  let rest := i.value % i.unit
  match i.holds below, i.holds (below + 1) with
  | false, false => none
  | true, false => some below
  | false, true => some (below + 1)
  | true, true =>
    if 2 * rest < i.unit then some below
    else if i.unit < 2 * rest then some (below + 1)
    else match tie with
      | .up => some (below + 1)
      | .toEven => some (if below % 2 == 0 then below else below + 1)

end Interval

def Decimal.trim : Nat → Decimal → Decimal
  | 0, d => d
  | fuel + 1, d =>
    if d.digits % 10 == 0 then Decimal.trim fuel ⟨d.digits / 10, d.exponent + 1⟩ else d

/-- The first of the grids with `count`, `count + 1`, … digits that has a decimal in the interval. -/
def shortestFrom (tie : Tie) (i : Interval) (top : Int) : (grids : Nat) → (count : Nat) → Decimal
  | 0, count => ⟨(i.onGrid (top - count + 1)).value / (i.onGrid (top - count + 1)).unit,
      top - count + 1⟩
  | grids + 1, count =>
    match (i.onGrid (top - count + 1)).nearest? tie with
    | some d => ⟨d, top - count + 1⟩
    | none => shortestFrom tie i top grids (count + 1)

/-- The decimal with the fewest digits that reads back as a finite float other than zero, sign
apart. Seventeen digits always do. -/
def shortest (tie : Tie) (b : Binary) : Decimal :=
  let i := Interval.ofBinary b
  (shortestFrom tie i i.leading 17 1).trim 18

end DiceScript.Number
