import Blake2F.Engine.Rows

/-! The engine for registers of two lanes: each row lies in two of them, and a turn of a row splices its halves. -/

namespace Blake2F

/-- A register of two words. -/
structure Pair where
  /-- The word in the first lane. -/
  lane0 : Word
  /-- The word in the second lane. -/
  lane1 : Word
  deriving DecidableEq, Repr

namespace Pair

/-- Applies a function of one word in each lane. -/
@[inline] def map (f : Word → Word) (pair : Pair) : Pair := ⟨f pair.lane0, f pair.lane1⟩

/-- Applies a function of two words in each lane. -/
@[inline] def zipWith (f : Word → Word → Word) (left right : Pair) : Pair :=
  ⟨f left.lane0 right.lane0, f left.lane1 right.lane1⟩

/-- Sums wrap around within each lane. -/
instance : Add Pair := ⟨zipWith (· + ·)⟩

/-- Bits are compared within each lane. -/
instance : XorOp Pair := ⟨zipWith (· ^^^ ·)⟩

/-- Bits are joined within each lane. -/
instance : OrOp Pair := ⟨zipWith (· ||| ·)⟩

/-- Shifts the bits of every lane down and fills with zeros. -/
@[inline] def shiftRight (pair : Pair) (amount : UInt64) : Pair := pair.map (· >>> amount)

/-- Shifts the bits of every lane up and fills with zeros. -/
@[inline] def shiftLeft (pair : Pair) (amount : UInt64) : Pair := pair.map (· <<< amount)

/-- Loads two consecutive words. -/
def load (words : Vector Word 8) (position : Nat) (within : position + 2 ≤ 8) : Pair :=
  ⟨words[position], words[position + 1]⟩

/-- The last word of one register, followed by the first word of another. -/
def splice (left right : Pair) : Pair := ⟨left.lane1, right.lane0⟩

/-- Turns the bits of every lane to the right by joining two shifts. -/
def turn (pair : Pair) (amount : UInt64) : Pair :=
  -- There is no instruction for a rotation here either.
  pair.shiftRight amount ||| pair.shiftLeft (64 - amount)

end Pair

/-- A row of four words in two registers. -/
structure Halves where
  /-- The first two words. -/
  low : Pair
  /-- The last two words. -/
  high : Pair
  deriving DecidableEq, Repr

namespace Halves

/-- Sums are taken half by half. -/
instance : Add Halves := ⟨fun left right => ⟨left.low + right.low, left.high + right.high⟩⟩

/-- Bits are compared half by half. -/
instance : XorOp Halves := ⟨fun left right => ⟨left.low ^^^ right.low, left.high ^^^ right.high⟩⟩

/-- Turns the bits of every lane to the right by the same amount. -/
def turn (halves : Halves) (amount : UInt64) : Halves :=
  ⟨halves.low.turn amount, halves.high.turn amount⟩

/-- Loads the four words of a row. -/
def ofRow (row : Row) : Halves := ⟨⟨row.lane0, row.lane1⟩, ⟨row.lane2, row.lane3⟩⟩

/-- Loads four consecutive words, two by two. -/
def load (words : Vector Word 8) (position : Nat) (within : position + 2 + 2 ≤ 8 := by decide) :
    Halves :=
  ⟨.load words position (Nat.le_of_add_right_le within), .load words (position + 2) within⟩

/-- Moves every word one lane down; the first word comes back at the end. -/
def turnLeft (halves : Halves) : Halves :=
  -- The word that leaves either half is the one that the other half lacks.
  ⟨halves.low.splice halves.high, halves.high.splice halves.low⟩

/-- Moves every word one lane up; the last word comes back at the start. -/
def turnRight (halves : Halves) : Halves :=
  ⟨halves.high.splice halves.low, halves.low.splice halves.high⟩

/-- Moves every word two lanes on, in either direction. -/
def swap (halves : Halves) : Halves := ⟨halves.high, halves.low⟩

end Halves

/-- The working vector in eight registers, two to a row. -/
structure Pairs where
  /-- The first half of the chaining state. -/
  a : Halves
  /-- The second half of the chaining state. -/
  b : Halves
  /-- The first half of the fixed words. -/
  c : Halves
  /-- The second half of the fixed words, with counter and final flag mixed in. -/
  d : Halves
  deriving DecidableEq, Repr

namespace Pairs

/-- The registers before the first round. -/
def start (state : State) (counter : Counter) (final : Bool) : Pairs where
  a := .load state 0
  b := .load state 4
  c := .load initialWords 0
  d := .load initialWords 4 ^^^ .ofRow ⟨counter.low, counter.high, finalMask final, 0⟩

/-- Half of the mixing function in every lane; the message words are added first. -/
@[inline] def mix (turnD turnB : UInt64) (pairs : Pairs) (words : Halves) : Pairs :=
  let a := (pairs.a + words) + pairs.b
  let d := (pairs.d ^^^ a).turn turnD
  let c := pairs.c + d
  let b := (pairs.b ^^^ c).turn turnB
  ⟨a, b, c, d⟩

/-- The first half of the mixing function. -/
def firstHalf (pairs : Pairs) (words : Halves) : Pairs := pairs.mix 32 24 words

/-- The second half of the mixing function. -/
def secondHalf (pairs : Pairs) (words : Halves) : Pairs := pairs.mix 16 63 words

/-- Brings the words of each diagonal into one lane. -/
def diagonalize (pairs : Pairs) : Pairs :=
  -- Three lanes to the left are one lane to the right.
  ⟨pairs.a, pairs.b.turnLeft, pairs.c.swap, pairs.d.turnRight⟩

/-- Brings the words of each diagonal back to their own lanes. -/
def undiagonalize (pairs : Pairs) : Pairs :=
  ⟨pairs.a, pairs.b.turnRight, pairs.c.swap, pairs.d.turnLeft⟩

/-- One round: the columns, then the diagonals. -/
def round (message : Message) (number : Nat) (pairs : Pairs) : Pairs :=
  let order := Schedule.order number
  let pairs := pairs.firstHalf (.ofRow (.gather message order 0))
  let pairs := pairs.secondHalf (.ofRow (.gather message order 1))
  let pairs := pairs.diagonalize
  let pairs := pairs.firstHalf (.ofRow (.gather message order 8))
  let pairs := pairs.secondHalf (.ofRow (.gather message order 9))
  pairs.undiagonalize

/-- As many rounds as `count` says, numbered from `first` on. -/
def rounds (message : Message) (first : Nat) : Nat → Pairs → Pairs
  | 0, pairs => pairs
  | count + 1, pairs => rounds message (first + 1) count (round message first pairs)

/-- The eight words of two rows, the first row's words first. -/
def store (low high : Halves) : State :=
  #v[low.low.lane0, low.low.lane1, low.high.lane0, low.high.lane1,
    high.low.lane0, high.low.lane1, high.high.lane0, high.high.lane1]

/-- The chaining state after a compression; each half is folded as one row. -/
def compress (params : Params) : State :=
  -- The first registers still hold the state when the last ones are folded into it.
  let first := start params.state params.counter params.final
  let last := rounds params.block.words 0 params.rounds.toNat first
  store ((last.a ^^^ last.c) ^^^ first.a) ((last.b ^^^ last.d) ^^^ first.b)

end Pairs

end Blake2F
