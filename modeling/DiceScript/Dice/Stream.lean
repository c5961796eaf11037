import DiceScript.Dice.Keystream

/-! # Drawing faces

A face of a die with `sides` sides is a word scaled down to the number of sides, where words that
would make some faces likelier are passed over. A word is passed over with a chance below one half,
so one that decides is never far away. The first `patience` words are looked at by a recursion on
their number, which a proof can compute; a longer search has no bound, and in a stream where no word
decides it does not end.

- `faceOf?` — the face that a word decides.
- `draw` — the face that the first such word decides.
-/

namespace DiceScript.Dice

/-- A stream of words that come in blocks. -/
structure Stream where
  /-- The words of block `n`. -/
  blocks : Nat → List UInt64
  /-- The number of blocks that have been started. -/
  started : Nat
  /-- What is left of the last started block. -/
  pending : List UInt64

namespace Stream

def ofSeed (seed : UInt64) : Stream :=
  let k := key seed
  { blocks := fun n => block k (UInt64.ofNat n), started := 0, pending := [] }

instance : Inhabited Stream := ⟨ofSeed 0⟩

/-- The next word, zero for a block without words, and the stream after it. -/
def next (s : Stream) : UInt64 × Stream :=
  match s.pending with
  | w :: rest => (w, { s with pending := rest })
  | [] =>
    match s.blocks s.started with
    | w :: rest => (w, { s with started := s.started + 1, pending := rest })
    | [] => (0, { s with started := s.started + 1 })

def skip : Nat → Stream → Stream
  | 0, s => s
  | count + 1, s => skip count s.next.2

end Stream

/-- The lower half of the product of a word with the sides must not exceed this. It is the greatest
multiple of the sides by a power of two below `2 ^ 64`, less one. -/
def zone (sides : Nat) : Nat := sides <<< (63 - Nat.log2 sides) - 1

/-- The face that a word decides; none when the word is passed over. -/
def faceOf? (sides : Nat) (w : UInt64) : Option Nat :=
  let product := w.toNat * sides
  if product % UInt64.size ≤ zone sides then some (1 + product / UInt64.size) else none

/-- Looks at the next word of a stream after some were passed over: it decides a face, or it is passed
over, too. -/
def look (sides : Nat) : Stream × Nat → (Stream × Nat) ⊕ (Nat × Nat)
  | (s, passed) =>
    let (w, s) := s.next
    match faceOf? sides w with
    | some face => .inr (face, passed)
    | none => .inl (s, passed + 1)

/-- The face that the first word decides which is not passed over, and the number of words that are
passed over before it. -/
def search (sides : Nat) (s : Stream) : Nat × Nat :=
  Id.run (repeatM (fun seen => pure (look sides seen)) (s, 0))

/-- The words that are looked at before a search without a bound. -/
def patience : Nat := 4096

/-- The face that the first word decides which is not passed over, and the stream after that word. -/
def drawFrom (sides : Nat) : (tries : Nat) → Stream → Nat × Stream
  | 0, s =>
    let (face, passed) := search sides s
    (face, (s.skip passed).next.2)
  | tries + 1, s =>
    let (w, s) := s.next
    match faceOf? sides w with
    | some face => (face, s)
    | none => drawFrom sides tries s

/-- A face between 1 and `sides`. -/
def draw (sides : Nat) (s : Stream) : Nat × Stream := drawFrom sides patience s

end DiceScript.Dice
