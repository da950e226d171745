import Blake2F.Engine.Lanes
import Blake2F.Engine.Pairs

/-! The two vector engines differ only in how they hold a row: what registers of two lanes do in pairs, one
register of four lanes does alone. -/

namespace Blake2F

namespace Halves

/-- The register of four lanes that holds the words of two registers. -/
def register (halves : Halves) : Register :=
  ⟨halves.low.lane0, halves.low.lane1, halves.high.lane0, halves.high.lane1⟩

variable (halves other : Halves)

/-- A row is loaded into either kind of register word by word. -/
theorem register_ofRow (row : Row) : (ofRow row).register = row := by
  -- Each lane keeps its word.
  rfl

/-- Consecutive words are loaded in the same order into either kind of register. -/
theorem register_load (words : Vector Word 8) (position : Nat) (within : position + 2 + 2 ≤ 8) :
    (load words position within).register = Lanes.load words position within := by
  -- The second half starts two words after the first.
  rfl

/-- A sum of halves is the sum of the whole registers. -/
theorem register_add : (halves + other).register = halves.register + other.register := by
  -- Both are taken within the lanes.
  rfl

/-- A comparison of halves is that of the whole registers. -/
theorem register_xor : (halves ^^^ other).register = halves.register ^^^ other.register := by
  -- No bit is compared with one of another lane.
  rfl

/-- The bits of a half turn as they do in the whole register. -/
theorem register_turn (amount : UInt64) :
    (halves.turn amount).register = halves.register.turn amount := by
  -- Either way the two shifts and their join stay within the lanes.
  rfl

/-- Splicing the halves fills each lane from the next one, and the last from the first. -/
theorem register_turnLeft :
    halves.turnLeft.register = halves.register.shuffle (Register.selector 0 3 2 1) := by
  -- The selector names the lanes 1, 2, 3 and 0, from its lowest bits up.
  rfl

/-- Splicing them in the other order fills each lane from the one before, and the first from the last. -/
theorem register_turnRight :
    halves.turnRight.register = halves.register.shuffle (Register.selector 2 1 0 3) := by
  -- The selector names the lanes 3, 0, 1 and 2.
  rfl

/-- Exchanging the halves fills each lane from the one two places away. -/
theorem register_swap : halves.swap.register = halves.register.shuffle (Register.selector 1 0 3 2) := by
  -- The selector names the lanes 2, 3, 0 and 1.
  rfl

end Halves

namespace Pairs

/-- The working vector in half as many registers of twice the width. -/
def lanes (pairs : Pairs) : Lanes :=
  ⟨pairs.a.register, pairs.b.register, pairs.c.register, pairs.d.register⟩

/-- Both kinds of register start from the same words. -/
theorem lanes_start (state : State) (counter : Counter) (final : Bool) :
    (start state counter final).lanes = Lanes.start state counter final := by
  -- The mask of counter and flag is loaded like any row.
  simp only [lanes, start, Lanes.start, Halves.register_load, Halves.register_xor,
    Halves.register_ofRow]

/-- Half of the mixing function does the same to both. -/
theorem lanes_mix (turnD turnB : UInt64) (pairs : Pairs) (words : Halves) :
    (pairs.mix turnD turnB words).lanes = pairs.lanes.mix turnD turnB words.register := by
  -- The message words are added first in either engine, so the steps agree one by one.
  simp only [mix, lanes, Lanes.mix, Halves.register_add, Halves.register_xor, Halves.register_turn]

/-- The splices line up the diagonals as the shuffles do. -/
theorem lanes_diagonalize (pairs : Pairs) : pairs.diagonalize.lanes = pairs.lanes.diagonalize := by
  -- The first row stays, and each of the others moves by its own number of lanes.
  simp only [diagonalize, lanes, Lanes.diagonalize, Halves.register_turnLeft, Halves.register_swap,
    Halves.register_turnRight]

/-- The splices back do what the shuffles back do. -/
theorem lanes_undiagonalize (pairs : Pairs) :
    pairs.undiagonalize.lanes = pairs.lanes.undiagonalize := by
  -- The two directions change places, in both engines.
  simp only [undiagonalize, lanes, Lanes.undiagonalize, Halves.register_turnLeft,
    Halves.register_swap, Halves.register_turnRight]

/-- The wide registers follow the pairs through one round. -/
theorem lanes_round (message : Message) (number : Nat) (pairs : Pairs) :
    (round message number pairs).lanes = pairs.lanes.round message number := by
  -- The six steps of a round correspond one to one.
  simp only [round, Lanes.round, firstHalf, secondHalf, Lanes.firstHalf, Lanes.secondHalf,
    lanes_undiagonalize, lanes_diagonalize, lanes_mix, Halves.register_ofRow]

/-- The wide registers follow the pairs through any number of rounds. -/
theorem lanes_rounds (message : Message) (first count : Nat) (pairs : Pairs) :
    (rounds message first count pairs).lanes = pairs.lanes.rounds message first count := by
  -- Both run the first round and then the rest, numbered on from it.
  induction count generalizing first pairs with
  | zero => rfl
  | succ count ih => rw [rounds, ih, lanes_round, Lanes.rounds]

/-- The words are stored from both kinds of register in the same order. -/
theorem store_eq_store (low high : Halves) :
    store low high = Lanes.store low.register high.register := by
  -- Each row is stored half by half.
  rfl

/-- Both vector engines leave the same state. -/
theorem compress_eq_lanes (params : Params) : compress params = Lanes.compress params := by
  -- The last registers correspond, and so do the first, into which they are folded.
  have last := lanes_rounds params.block.words 0 params.rounds.toNat
    (start params.state params.counter params.final)
  rw [lanes_start] at last
  rw [compress, Lanes.compress, ← last, ← lanes_start, store_eq_store]
  simp only [Halves.register_xor, lanes]

end Pairs

end Blake2F
