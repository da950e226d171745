import Blake2F.Schedule

/-! Rows of four words, on which every step of a round acts lane by lane. -/

namespace Blake2F

/-- Four words that are worked on side by side. -/
structure Row where
  /-- The word in the first lane. -/
  lane0 : Word
  /-- The word in the second lane. -/
  lane1 : Word
  /-- The word in the third lane. -/
  lane2 : Word
  /-- The word in the fourth lane. -/
  lane3 : Word
  deriving DecidableEq, Repr

/-- A row can be gathered from ten offsets, so they can be written as numerals. -/
instance neZero_ten : @NeZero Nat Zero.ofOfNat0 10 := ⟨by decide⟩

namespace Row

/-- Applies a function of one word in each lane. -/
@[inline] def map (f : Word → Word) (row : Row) : Row :=
  ⟨f row.lane0, f row.lane1, f row.lane2, f row.lane3⟩

/-- Applies a function of two words in each lane. -/
@[inline] def zipWith (f : Word → Word → Word) (left right : Row) : Row :=
  ⟨f left.lane0 right.lane0, f left.lane1 right.lane1, f left.lane2 right.lane2,
    f left.lane3 right.lane3⟩

/-- Sums wrap around within each lane. -/
instance : Add Row := ⟨zipWith (· + ·)⟩

/-- Bits are compared within each lane. -/
instance : XorOp Row := ⟨zipWith (· ^^^ ·)⟩

/-- Bits are joined within each lane. -/
instance : OrOp Row := ⟨zipWith (· ||| ·)⟩

/-- Turns the bits of every lane to the right by the same amount. -/
@[inline] def rotateRight (row : Row) (amount : UInt64) : Row :=
  row.map (Word.rotateRight · amount)

/-- Moves every word a number of lanes down; the lowest words come back at the top. -/
def turnLeft : Row → Nat → Row
  | row, 0 => row
  | ⟨w0, w1, w2, w3⟩, count + 1 => turnLeft ⟨w1, w2, w3, w0⟩ count

/-- Moves every word a number of lanes up; the highest words come back at the bottom. -/
def turnRight : Row → Nat → Row
  | row, 0 => row
  | ⟨w0, w1, w2, w3⟩, count + 1 => turnRight ⟨w3, w0, w1, w2⟩ count

/-- The words of a row in the order of their lanes. -/
def toVector (row : Row) : Vector Word 4 := #v[row.lane0, row.lane1, row.lane2, row.lane3]

/-- The row whose lanes hold the given words. -/
def ofVector (words : Vector Word 4) : Row := ⟨words[0], words[1], words[2], words[3]⟩

/-- The row of message words that an order names from an offset on, taking every second entry. -/
@[inline] def gather (message : Message) (order : Order) (offset : Fin 10) : Row :=
  -- The entries between those taken feed the other half of the mixing function.
  ⟨message[order[offset.val]], message[order[offset.val + 2]], message[order[offset.val + 4]],
    message[order[offset.val + 6]]⟩

/-- Gathers from any offset, and finds nothing once one of the four entries lies past the order's end. -/
def gather? (message : Message) (order : Order) (offset : Nat) : Option Row := do
  -- The words themselves are always found, as an order names none but the sixteen there are.
  let first ← order[offset]?
  let second ← order[offset + 2]?
  let third ← order[offset + 4]?
  let fourth ← order[offset + 6]?
  return ⟨message.get first, message.get second, message.get third, message.get fourth⟩

/-- The last two terms of a sum of rows may change places. -/
theorem add_right_comm (first second third : Row) :
    first + second + third = first + third + second := by
  -- The two terms change places in every lane.
  have swap (x y z : Word) : x + y + z = x + z + y := by
    rw [UInt64.add_assoc, UInt64.add_comm y, ← UInt64.add_assoc]
  exact (Row.mk.injEq ..).mpr ⟨swap _ _ _, swap _ _ _, swap _ _ _, swap _ _ _⟩

/-- Bits are compared in either order. -/
theorem xor_comm (left right : Row) : left ^^^ right = right ^^^ left := by
  -- The order does not matter in any lane.
  exact (Row.mk.injEq ..).mpr ⟨UInt64.xor_comm _ _, UInt64.xor_comm _ _, UInt64.xor_comm _ _,
    UInt64.xor_comm _ _⟩

/-- A turn by one more lane is a turn by one lane after the others. -/
theorem turnRight_succ (row : Row) (count : Nat) :
    row.turnRight (count + 1) = (row.turnRight count).turnRight 1 := by
  -- Turns only ever compose, so the first one may as well come last.
  induction count generalizing row with
  | zero => rfl
  | succ count ih =>
    rw [turnRight, ih]
    rfl

/-- Turning to the right undoes turning to the left. -/
@[simp] theorem turnRight_turnLeft (row : Row) (count : Nat) :
    (row.turnLeft count).turnRight count = row := by
  -- The last lane turned left is the first one turned back.
  induction count generalizing row with
  | zero => rfl
  | succ count ih =>
    rw [turnLeft, turnRight_succ, ih]
    rfl

/-- An offset up to nine finds all four entries. -/
theorem gather?_eq_gather (message : Message) (order : Order) (offset : Fin 10) :
    gather? message order offset.val = some (gather message order offset) := by
  -- The furthest entry is six past the offset.
  simp [gather?, gather, show offset.val < 16 by omega, show offset.val + 2 < 16 by omega,
    show offset.val + 4 < 16 by omega, show offset.val + 6 < 16 by omega, get_eq_getElem]

end Row

end Blake2F
