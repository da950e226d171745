import Mathlib.Logic.Function.Iterate
import Blake2F.Engine.Rows

/-! The schedule comes back to its first order after ten rounds, so any number of rounds is a number of whole
cycles and the first few rounds of one more. -/

namespace Blake2F

namespace Schedule

/-- Whole cycles in front of a round leave its order alone. -/
theorem order_add_cycles (round cycles : Nat) : order (round + 10 * cycles) = order round := by
  -- The cycles are counted off one by one.
  induction cycles with
  | zero => rfl
  | succ cycles ih =>
    have later : round + 10 * (cycles + 1) = round + 10 * cycles + 10 := by omega
    rw [later, order_add_ten, ih]

/-- Ten does not divide the number of a round past the last that can be asked for. -/
example : order 4294967295 = order 5 := rfl

end Schedule

namespace Rows

variable (message : Message)

/-- A round depends on its number through the order of its words only. -/
theorem round_add_cycles (number cycles : Nat) :
    round message (number + 10 * cycles) = round message number := by
  -- The number is used for nothing but the order.
  funext rows
  unfold round
  rw [Schedule.order_add_cycles]

/-- Whole cycles in front of the first round leave all the rounds alone. -/
theorem rounds_add_cycles (first cycles count : Nat) :
    rounds message (first + 10 * cycles) count = rounds message first count := by
  -- The first number grows by one with each round on both sides.
  funext rows
  induction count generalizing first rows with
  | zero => rfl
  | succ count ih =>
    have next : first + 10 * cycles + 1 = first + 1 + 10 * cycles := by omega
    -- The first round is the same in both runs, and the others are numbered on from it.
    show rounds message (first + 10 * cycles + 1) count (round message (first + 10 * cycles) rows) =
      rounds message (first + 1) count (round message first rows)
    rw [next, ih, round_add_cycles]

/-- After whole cycles the rounds may be numbered from zero. -/
theorem rounds_from_cycles (cycles count : Nat) :
    rounds message (10 * cycles) count = rounds message 0 count := by
  -- Whole cycles are put in front of the round with the number zero.
  have shifted := rounds_add_cycles message 0 cycles count
  rwa [Nat.zero_add] at shifted

/-- Whole cycles are the ten rounds of one cycle, over and over. -/
theorem rounds_cycles (cycles : Nat) :
    rounds message 0 (10 * cycles) = (rounds message 0 10)^[cycles] := by
  -- The last cycle is split off, and numbered from zero.
  funext rows
  induction cycles with
  | zero => rfl
  | succ cycles ih =>
    have split : 10 * (cycles + 1) = 10 * cycles + 10 := by omega
    rw [split, rounds_add, Nat.zero_add, rounds_from_cycles, ih, Function.iterate_succ_apply']

/-- Rounds are whole cycles, followed by the first few of one more. -/
theorem rounds_cycles_add (cycles rest : Nat) (rows : Rows) :
    rounds message 0 (10 * cycles + rest) rows =
      rounds message 0 rest ((rounds message 0 10)^[cycles] rows) := by
  -- The rest is numbered on from the cycles, and so from zero.
  rw [rounds_add, Nat.zero_add, rounds_from_cycles, rounds_cycles]

end Rows

end Blake2F
