import Blake2F.Row

/-! The portable engine: a round mixes the four columns of four rows at once, and then the four diagonals. -/

namespace Blake2F

/-- The working vector of sixteen words as four rows; lane `i` of the rows is column `i`. -/
structure Rows where
  /-- The first half of the chaining state. -/
  a : Row
  /-- The second half of the chaining state. -/
  b : Row
  /-- The first half of the fixed words. -/
  c : Row
  /-- The second half of the fixed words, with counter and final flag mixed in. -/
  d : Row
  deriving DecidableEq, Repr

namespace Rows

/-- The rows before the first round. -/
def start (state : State) (counter : Counter) (final : Bool) : Rows where
  a := ⟨state[0], state[1], state[2], state[3]⟩
  b := ⟨state[4], state[5], state[6], state[7]⟩
  c := ⟨initialWords[0], initialWords[1], initialWords[2], initialWords[3]⟩
  d := ⟨initialWords[4] ^^^ counter.low, initialWords[5] ^^^ counter.high,
    initialWords[6] ^^^ finalMask final, initialWords[7]⟩

/-- Half of the mixing function in every column, given the two amounts that `d` and `b` turn by. -/
@[inline] def mix (turnD turnB : UInt64) (rows : Rows) (words : Row) : Rows :=
  -- Each row is changed once, from the rows already changed.
  let a := rows.a + rows.b + words
  let d := (rows.d ^^^ a).rotateRight turnD
  let c := rows.c + d
  let b := (rows.b ^^^ c).rotateRight turnB
  ⟨a, b, c, d⟩

/-- The first half of the mixing function. -/
def firstHalf (rows : Rows) (words : Row) : Rows := rows.mix 32 24 words

/-- The second half of the mixing function. -/
def secondHalf (rows : Rows) (words : Row) : Rows := rows.mix 16 63 words

/-- Brings the words of each diagonal into one lane. -/
def diagonalize (rows : Rows) : Rows :=
  ⟨rows.a, rows.b.turnLeft 1, rows.c.turnLeft 2, rows.d.turnLeft 3⟩

/-- Brings the words of each diagonal back to their own lanes. -/
def undiagonalize (rows : Rows) : Rows :=
  ⟨rows.a, rows.b.turnRight 1, rows.c.turnRight 2, rows.d.turnRight 3⟩

/-- Bringing the diagonals into lanes can be undone. -/
@[simp] theorem undiagonalize_diagonalize (rows : Rows) : rows.diagonalize.undiagonalize = rows := by
  -- Each row is turned back by as many lanes as it was turned.
  simp [diagonalize, undiagonalize]

/-- One round: the columns, then the diagonals, each fed four message words in either half. -/
def round (message : Message) (number : Nat) (rows : Rows) : Rows :=
  let order := Schedule.order number
  -- The first eight entries of the order feed the columns.
  let rows := rows.firstHalf (.gather message order 0)
  let rows := rows.secondHalf (.gather message order 1)
  -- The last eight feed the diagonals, which are columns while the rows are turned.
  let rows := rows.diagonalize
  let rows := rows.firstHalf (.gather message order 8)
  let rows := rows.secondHalf (.gather message order 9)
  rows.undiagonalize

/-- As many rounds as `count` says, numbered from `first` on. -/
def rounds (message : Message) (first : Nat) : Nat → Rows → Rows
  | 0, rows => rows
  | count + 1, rows => rounds message (first + 1) count (round message first rows)

/-- Rounds can be run in two runs, the second numbered on from where the first ends. -/
theorem rounds_add (message : Message) (first before after : Nat) (rows : Rows) :
    rounds message first (before + after) rows =
      rounds message (first + before) after (rounds message first before rows) := by
  -- Each round of the first run is the first of all that are left.
  induction before generalizing first rows with
  | zero => simp [rounds]
  | succ before ih =>
    rw [Nat.add_right_comm]
    simp only [rounds]
    rw [ih, Nat.add_assoc first 1, Nat.add_comm 1]

/-- The last round can be split off as well as the first. -/
theorem rounds_succ (message : Message) (first count : Nat) (rows : Rows) :
    rounds message first (count + 1) rows =
      round message (first + count) (rounds message first count rows) := by
  -- The last round is a run of its own.
  rw [rounds_add]
  rfl

/-- Folds the rows into the chaining state, each half by the two rows in its column. -/
def fold (rows : Rows) (state : State) : State :=
  -- Rows `a` and `c` lie eight words apart in the working vector, and so do `b` and `d`.
  let low := rows.a ^^^ rows.c
  let high := rows.b ^^^ rows.d
  #v[state[0] ^^^ low.lane0, state[1] ^^^ low.lane1, state[2] ^^^ low.lane2, state[3] ^^^ low.lane3,
    state[4] ^^^ high.lane0, state[5] ^^^ high.lane1, state[6] ^^^ high.lane2, state[7] ^^^ high.lane3]

/-- The chaining state after a compression. -/
def compress (params : Params) : State :=
  -- The state is needed twice: the rows start from it and are folded into it.
  let rows := start params.state params.counter params.final
  (rounds params.block.words 0 params.rounds.toNat rows).fold params.state

end Rows

end Blake2F
