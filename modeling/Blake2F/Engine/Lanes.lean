import Blake2F.Engine.Rows

/-! The vector engine: the same rounds on registers of four lanes, where a rotation is two shifts and a
turn is a shuffle by selector. -/

namespace Blake2F

/-- A register of four words; every instruction but the shuffle acts within the lanes. -/
abbrev Register := Row

namespace Register

/-- Shifts the bits of every lane down and fills with zeros. -/
@[inline] def shiftRight (register : Register) (amount : UInt64) : Register :=
  register.map (· >>> amount)

/-- Shifts the bits of every lane up and fills with zeros. -/
@[inline] def shiftLeft (register : Register) (amount : UInt64) : Register :=
  register.map (· <<< amount)

/-- The word in the lane that the lowest two bits of a number name. -/
def lane (register : Register) (number : UInt8) : Word :=
  -- Higher bits belong to the other lanes of the selector.
  match number &&& 3 with
  | 0 => register.lane0
  | 1 => register.lane1
  | 2 => register.lane2
  | _ => register.lane3

/-- Fills each lane from the lane that its two bits of the selector name, the first lane by the lowest two. -/
def shuffle (register : Register) (selector : UInt8) : Register :=
  ⟨register.lane selector, register.lane (selector >>> 2), register.lane (selector >>> 4),
    register.lane (selector >>> 6)⟩

/-- The selector that fills the lanes, last to first, from the lanes given. -/
def selector (fourth third second first : UInt8) : UInt8 :=
  (fourth <<< 6) ||| (third <<< 4) ||| (second <<< 2) ||| first

/-- Turns the bits of every lane to the right by joining two shifts. -/
def turn (register : Register) (amount : UInt64) : Register :=
  -- There is no instruction for a rotation.
  register.shiftRight amount ||| register.shiftLeft (64 - amount)

end Register

/-- The working vector in four registers. -/
structure Lanes where
  /-- The first half of the chaining state. -/
  a : Register
  /-- The second half of the chaining state. -/
  b : Register
  /-- The first half of the fixed words. -/
  c : Register
  /-- The second half of the fixed words, with counter and final flag mixed in. -/
  d : Register
  deriving DecidableEq, Repr

namespace Lanes

/-- Four consecutive words as one register. -/
def load (words : Vector Word 8) (position : Nat) (within : position + 4 ≤ 8 := by decide) : Register :=
  ⟨words[position], words[position + 1], words[position + 2], words[position + 3]⟩

/-- The registers before the first round. -/
def start (state : State) (counter : Counter) (final : Bool) : Lanes where
  a := load state 0
  b := load state 4
  c := load initialWords 0
  d := load initialWords 4 ^^^ ⟨counter.low, counter.high, finalMask final, 0⟩

/-- Half of the mixing function in every lane; the message words are added first. -/
@[inline] def mix (turnD turnB : UInt64) (lanes : Lanes) (words : Register) : Lanes :=
  let a := lanes.a + words
  let a := a + lanes.b
  let d := lanes.d ^^^ a
  let d := d.turn turnD
  let c := lanes.c + d
  let b := lanes.b ^^^ c
  let b := b.turn turnB
  ⟨a, b, c, d⟩

/-- The first half of the mixing function. -/
def firstHalf (lanes : Lanes) (words : Register) : Lanes := lanes.mix 32 24 words

/-- The second half of the mixing function. -/
def secondHalf (lanes : Lanes) (words : Register) : Lanes := lanes.mix 16 63 words

/-- Brings the words of each diagonal into one lane. -/
def diagonalize (lanes : Lanes) : Lanes where
  a := lanes.a
  -- Lane 0 of `b` is filled from lane 1, of `c` from lane 2 and of `d` from lane 3.
  b := lanes.b.shuffle (Register.selector 0 3 2 1)
  c := lanes.c.shuffle (Register.selector 1 0 3 2)
  d := lanes.d.shuffle (Register.selector 2 1 0 3)

/-- Brings the words of each diagonal back to their own lanes. -/
def undiagonalize (lanes : Lanes) : Lanes where
  a := lanes.a
  -- The selectors of `b` and `d` change places, and that of `c` undoes itself.
  b := lanes.b.shuffle (Register.selector 2 1 0 3)
  c := lanes.c.shuffle (Register.selector 1 0 3 2)
  d := lanes.d.shuffle (Register.selector 0 3 2 1)

/-- One round: the columns, then the diagonals. -/
def round (message : Message) (number : Nat) (lanes : Lanes) : Lanes :=
  let order := Schedule.order number
  let lanes := lanes.firstHalf (.gather message order 0)
  let lanes := lanes.secondHalf (.gather message order 1)
  let lanes := lanes.diagonalize
  let lanes := lanes.firstHalf (.gather message order 8)
  let lanes := lanes.secondHalf (.gather message order 9)
  lanes.undiagonalize

/-- As many rounds as `count` says, numbered from `first` on. -/
def rounds (message : Message) (first : Nat) : Nat → Lanes → Lanes
  | 0, lanes => lanes
  | count + 1, lanes => rounds message (first + 1) count (round message first lanes)

/-- The eight words of two registers, the first register's words first. -/
def store (low high : Register) : State :=
  #v[low.lane0, low.lane1, low.lane2, low.lane3, high.lane0, high.lane1, high.lane2, high.lane3]

/-- The chaining state after a compression; each half is folded as one register. -/
def compress (params : Params) : State :=
  -- The first registers still hold the state when the last ones are folded into it.
  let first := start params.state params.counter params.final
  let last := rounds params.block.words 0 params.rounds.toNat first
  store ((last.a ^^^ last.c) ^^^ first.a) ((last.b ^^^ last.d) ^^^ first.b)

end Lanes

end Blake2F
