import Blake2F.Bytes

/-! The parameters of one compression, its constants, and the order in which its rounds take the message words. -/

namespace Blake2F

/-- The chaining state that a compression turns into the next one. -/
abbrev State := Vector Word 8

/-- The message block in the form in which it is handed over. -/
abbrev Block := Vector UInt8 128

/-- How many bytes have been compressed so far, as a number of two words. -/
structure Counter where
  /-- The low word. -/
  low : Word := 0
  /-- The high word. -/
  high : Word := 0
  deriving DecidableEq, Repr

/-- What one compression is given; the round count is the caller's choice and may be zero. -/
structure Params where
  /-- The number of rounds. -/
  rounds : UInt32 := 0
  /-- The chaining state before the compression. -/
  state : State := Vector.replicate 8 0
  /-- The message block. -/
  block : Block := Vector.replicate 128 0
  /-- The offset counter. -/
  counter : Counter := ⟨0, 0⟩
  /-- Whether this is the last block of its message. -/
  final : Bool := false
  deriving DecidableEq, Repr

/-- A position that carries its own bound is read like any other. -/
theorem get_eq_getElem {α : Type} {size : Nat} (vector : Vector α size) (position : Fin size) :
    vector.get position = vector[position.val] := rfl

/-- The message block as the rounds read it. -/
abbrev Message := Vector Word 16

/-- The message words are the sixteen little-endian words of the block. -/
def Block.words (block : Block) : Message := Words.ofBytes block

/-- The fixed words that fill the second half of the working vector. -/
def initialWords : Vector Word 8 :=
  #v[0x6a09e667f3bcc908, 0xbb67ae8584caa73b, 0x3c6ef372fe94f82b, 0xa54ff53a5f1d36f1,
    0x510e527fade682d1, 0x9b05688c2b3e6c1f, 0x1f83d9abfb41bd6b, 0x5be0cd19137e2179]

/-- The mask that inverts one working word in the final block and leaves it alone in every other. -/
def finalMask (final : Bool) : Word := if final then 0xffffffffffffffff else 0

/-- Applying the mask inverts the word in the final block only. -/
theorem xor_finalMask (word : Word) (final : Bool) :
    word ^^^ finalMask final = if final then ~~~word else word := by
  -- The mask is all ones or all zeros.
  cases final with
  | false => exact UInt64.xor_zero
  | true => exact UInt64.xor_neg_one

/-- The order in which one round takes the message words. -/
abbrev Order := Vector (Fin 16) 16

/-- There are sixteen message words, so their positions can be written as numerals. -/
instance neZero_sixteen : @NeZero Nat Zero.ofOfNat0 16 := ⟨by decide⟩

namespace Schedule

/-- The positions of the message words in the order of each of the first ten rounds. -/
def numbers : Vector (Vector Nat 16) 10 :=
  #v[
    #v[0, 1, 2, 3, 4, 5, 6, 7, 8, 9, 10, 11, 12, 13, 14, 15],
    #v[14, 10, 4, 8, 9, 15, 13, 6, 1, 12, 0, 2, 11, 7, 5, 3],
    #v[11, 8, 12, 0, 5, 2, 15, 13, 10, 14, 3, 6, 7, 1, 9, 4],
    #v[7, 9, 3, 1, 13, 12, 11, 14, 2, 6, 5, 10, 4, 0, 15, 8],
    #v[9, 0, 5, 7, 2, 4, 10, 15, 14, 1, 11, 12, 6, 8, 3, 13],
    #v[2, 12, 6, 10, 0, 11, 8, 3, 4, 13, 7, 5, 15, 14, 1, 9],
    #v[12, 5, 1, 15, 14, 13, 4, 10, 0, 7, 6, 3, 9, 2, 8, 11],
    #v[13, 11, 7, 14, 12, 1, 3, 9, 5, 0, 15, 4, 8, 6, 2, 10],
    #v[6, 15, 14, 9, 11, 3, 0, 8, 12, 2, 13, 7, 1, 4, 10, 5],
    #v[10, 2, 8, 4, 7, 6, 1, 5, 15, 11, 9, 14, 3, 12, 13, 0]
  ]

/-- Every entry of the table is the position of a message word. -/
theorem numbers_lt (index : Fin 10) (place : Fin 16) : (numbers.get index).get place < 16 := by
  -- The table is finite.
  revert index place
  decide

/-- The ten orders of the first ten rounds. -/
def orders : Vector Order 10 :=
  -- The table is given its bound here, and nothing after this asks for it again.
  Vector.ofFn fun index => Vector.ofFn fun place =>
    ⟨(numbers.get index).get place, numbers_lt index place⟩

/-- The order of a round, given by its number from zero; the ten orders repeat without end. -/
def order (round : Nat) : Order := orders[round % 10]

/-- A round and the one ten later use the same order. -/
@[simp] theorem order_add_ten (round : Nat) : order (round + 10) = order round := by
  -- Only the remainder of the round number matters.
  simp [order]

/-- Each order takes every message word exactly once. -/
theorem orders_perm (index : Fin 10) : orders[index].toList.Perm (List.finRange 16) := by
  -- The table is finite.
  revert index
  decide

end Schedule

end Blake2F
