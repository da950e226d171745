import Mathlib.Logic.Function.Basic
import Blake2F.Proofs.Engine.Inverse

/-! The rounds permute the working rows: run backwards from the last one to the first, each with its steps
taken back, they lead from the rows after all rounds to the rows before the first. -/

namespace Blake2F

open Function

/-- The mask tells whether the block is the final one. -/
theorem finalMask_injective : Injective finalMask := by
  intro left right same
  -- Only one of the two masks is zero.
  cases left with
  | false =>
    cases right with
    | false => rfl
    | true => exact absurd same (by decide)
  | true =>
    cases right with
    | false => exact absurd same (by decide)
    | true => rfl

namespace Rows

/-- Takes one round back. -/
def undoRound (message : Message) (number : Nat) (rows : Rows) : Rows :=
  let order := Schedule.order number
  -- The diagonals were mixed last, so they are lined up once more and restored first.
  let rows := rows.diagonalize
  let rows := rows.undoSecondHalf (.gather message order 9)
  let rows := rows.undoFirstHalf (.gather message order 8)
  let rows := rows.undiagonalize
  let rows := rows.undoSecondHalf (.gather message order 1)
  rows.undoFirstHalf (.gather message order 0)

/-- Takes back as many rounds as `count` says, numbered from `first` on; the one run last goes first. -/
def undoRounds (message : Message) (first : Nat) : Nat → Rows → Rows
  | 0, rows => rows
  | count + 1, rows => undoRounds message first count (undoRound message (first + count) rows)

section

variable (message : Message) (number : Nat) (rows : Rows)

/-- A round is undone by taking it back. -/
theorem undoRound_round : undoRound message number (round message number rows) = rows := by
  -- Six steps meet their inverses, from the middle outwards.
  simp only [undoRound, round, diagonalize_undiagonalize, undiagonalize_diagonalize,
    undoSecondHalf_secondHalf, undoFirstHalf_firstHalf]

/-- A round brings back the rows that it was taken back from. -/
theorem round_undoRound : round message number (undoRound message number rows) = rows := by
  -- The same six steps meet their inverses, now in their own order.
  simp only [undoRound, round, diagonalize_undiagonalize, undiagonalize_diagonalize,
    secondHalf_undoSecondHalf, firstHalf_undoFirstHalf]

end

variable (message : Message) (first count : Nat) (rows : Rows)

/-- Any number of rounds is undone by taking them back, the last one first. -/
theorem undoRounds_rounds :
    undoRounds message first count (rounds message first count rows) = rows := by
  -- The round with the highest number is split off both runs.
  induction count with
  | zero => rfl
  | succ count ih =>
    -- The round run last is the one that is taken back first.
    show undoRounds message first count
      (undoRound message (first + count) (rounds message first (count + 1) rows)) = rows
    rw [rounds_succ, undoRound_round, ih]

/-- Rounds bring back the rows that they were taken back from. -/
theorem rounds_undoRounds :
    rounds message first count (undoRounds message first count rows) = rows := by
  -- The round taken back first is run again last.
  induction count generalizing rows with
  | zero => rfl
  | succ count ih =>
    show rounds message first (count + 1)
      (undoRounds message first count (undoRound message (first + count) rows)) = rows
    rw [rounds_succ, ih, round_undoRound]

/-- The rows before the first round show the state, both words of the counter and the flag. -/
theorem start_injective :
    Injective fun input : State × Counter × Bool => start input.1 input.2.1 input.2.2 := by
  -- Equal rows are equal lane by lane, and each lane belongs to one part of the input.
  intro left right same
  obtain ⟨state, ⟨low, high⟩, final⟩ := left
  obtain ⟨state', ⟨low', high'⟩, final'⟩ := right
  simp only [start, Rows.mk.injEq, Row.mk.injEq] at same
  obtain ⟨⟨s0, s1, s2, s3⟩, ⟨s4, s5, s6, s7⟩, -, sameLow, sameHigh, sameFinal, -⟩ := same
  have states : state = state' := by
    apply Vector.ext
    intro place inside
    -- Rows `a` and `b` hold the eight words as they are.
    rcases place with _ | _ | _ | _ | _ | _ | _ | _ | place
    · exact s0
    · exact s1
    · exact s2
    · exact s3
    · exact s4
    · exact s5
    · exact s6
    · exact s7
    · omega
  -- Counter and flag are compared with fixed words, which hides nothing.
  have lows : low = low' := (UInt64.xor_right_inj _).mp sameLow
  have highs : high = high' := (UInt64.xor_right_inj _).mp sameHigh
  have finals : final = final' := finalMask_injective ((UInt64.xor_right_inj _).mp sameFinal)
  rw [states, lows, highs, finals]

/-- Rounds permute the rows, so what the rows start from is still in them when they are folded. -/
theorem rounds_permute_rows :
    (∀ message count, Bijective (rounds message 0 count) ∧
      LeftInverse (undoRounds message 0 count) (rounds message 0 count) ∧
      RightInverse (undoRounds message 0 count) (rounds message 0 count)) ∧
    (Injective fun input : State × Counter × Bool => start input.1 input.2.1 input.2.2) ∧
    ∀ (block : Block) (count : UInt32), Injective fun input : State × Counter × Bool =>
      rounds block.words 0 count.toNat (start input.1 input.2.1 input.2.2) := by
  -- A function with an inverse on both sides is a bijection, and the start is injective before it.
  have permuted (message : Message) (count : Nat) : Bijective (rounds message 0 count) :=
    bijective_iff_has_inverse.mpr
      ⟨undoRounds message 0 count, undoRounds_rounds message 0 count, rounds_undoRounds message 0 count⟩
  refine ⟨?_, start_injective, ?_⟩
  · intro message count
    exact ⟨permuted message count, undoRounds_rounds message 0 count, rounds_undoRounds message 0 count⟩
  · intro block count
    exact (permuted block.words count.toNat).injective.comp start_injective

end Rows

end Blake2F
