/-! # A seeded stream of random words

The dice of a run come from the ChaCha block function with twelve rounds. A block is sixteen words of
32 bits, taken two at a time, the lower half first. The key is expanded from a seed of 64 bits by a
linear congruence whose states are mixed down to words.

- `key` — the eight words of a seed.
- `block` — the words of 64 bits of one block.
-/

namespace DiceScript.Dice

/-- A word with its bits turned left; `n` is between 1 and 31. -/
def rotateLeft (x : UInt32) (n : UInt32) : UInt32 := (x <<< n) ||| (x >>> (32 - n))

def rotateRight (x : UInt32) (n : UInt32) : UInt32 := (x >>> n) ||| (x <<< ((32 - n) % 32))

/-! ## The key -/

def nextState (s : UInt64) : UInt64 := s * 6364136223846793005 + 11634580027462260723

def mixDown (s : UInt64) : UInt32 :=
  rotateRight ((((s >>> 18) ^^^ s) >>> 27).toUInt32) (s >>> 59).toUInt32

def keyWords (s : UInt64) : Nat → List UInt32
  | 0 => []
  | n + 1 => mixDown (nextState s) :: keyWords (nextState s) n

structure Key where
  (k0 k1 k2 k3 k4 k5 k6 k7 : UInt32)
deriving Repr, DecidableEq, Inhabited

def key (seed : UInt64) : Key :=
  match keyWords seed 8 with
  | [k0, k1, k2, k3, k4, k5, k6, k7] => ⟨k0, k1, k2, k3, k4, k5, k6, k7⟩
  | _ => default

/-! ## Blocks -/

structure Quarter where
  (a b c d : UInt32)
deriving Repr, DecidableEq, Inhabited

def Quarter.mix (q : Quarter) : Quarter :=
  let a := q.a + q.b
  let d := rotateLeft (q.d ^^^ a) 16
  let c := q.c + d
  let b := rotateLeft (q.b ^^^ c) 12
  let a := a + b
  let d := rotateLeft (d ^^^ a) 8
  let c := c + d
  let b := rotateLeft (b ^^^ c) 7
  ⟨a, b, c, d⟩

/-- The working state: four columns of four words, the words of a row being the same field. -/
structure Square where
  (w0 w1 w2 w3 : Quarter)
deriving Repr, DecidableEq, Inhabited

def Square.columns (s : Square) : Square := ⟨s.w0.mix, s.w1.mix, s.w2.mix, s.w3.mix⟩

/-- The diagonals as columns. -/
def Square.slant (s : Square) : Square :=
  ⟨⟨s.w0.a, s.w1.b, s.w2.c, s.w3.d⟩, ⟨s.w1.a, s.w2.b, s.w3.c, s.w0.d⟩,
    ⟨s.w2.a, s.w3.b, s.w0.c, s.w1.d⟩, ⟨s.w3.a, s.w0.b, s.w1.c, s.w2.d⟩⟩

def Square.straighten (s : Square) : Square :=
  ⟨⟨s.w0.a, s.w3.b, s.w2.c, s.w1.d⟩, ⟨s.w1.a, s.w0.b, s.w3.c, s.w2.d⟩,
    ⟨s.w2.a, s.w1.b, s.w0.c, s.w3.d⟩, ⟨s.w3.a, s.w2.b, s.w1.c, s.w0.d⟩⟩

/-- Mixes the columns, then the diagonals. -/
def Square.doubleRound (s : Square) : Square := s.columns.slant.columns.straighten

def Square.add (s t : Square) : Square :=
  let sum (q r : Quarter) : Quarter := ⟨q.a + r.a, q.b + r.b, q.c + r.c, q.d + r.d⟩
  ⟨sum s.w0 t.w0, sum s.w1 t.w1, sum s.w2 t.w2, sum s.w3 t.w3⟩

/-- The state from which block `n` starts: constants, key, counter. -/
def startSquare (k : Key) (n : UInt64) : Square :=
  ⟨⟨0x61707865, k.k0, k.k4, n.toUInt32⟩, ⟨0x3320646e, k.k1, k.k5, (n >>> 32).toUInt32⟩,
    ⟨0x79622d32, k.k2, k.k6, 0⟩, ⟨0x6b206574, k.k3, k.k7, 0⟩⟩

def joinWords (low high : UInt32) : UInt64 := low.toUInt64 ||| (high.toUInt64 <<< 32)

/-- The words of a state, row by row, two at a time. -/
def Square.words (s : Square) : List UInt64 :=
  [joinWords s.w0.a s.w1.a, joinWords s.w2.a s.w3.a, joinWords s.w0.b s.w1.b,
    joinWords s.w2.b s.w3.b, joinWords s.w0.c s.w1.c, joinWords s.w2.c s.w3.c,
    joinWords s.w0.d s.w1.d, joinWords s.w2.d s.w3.d]

/-- The words of block `n`. -/
def block (k : Key) (n : UInt64) : List UInt64 :=
  let start := startSquare k n
  let mixed := start.doubleRound.doubleRound.doubleRound.doubleRound.doubleRound.doubleRound
  (mixed.add start).words

end DiceScript.Dice
