import Blake2F.Engine
import Blake2F.Proofs.Engine.Pairs

/-! The vector engines leave the states of the portable one, so the choice of an engine never shows. -/

namespace Blake2F

/-- Joining two shifts in every lane turns the bits of every lane. -/
theorem Register.turn_eq_rotateRight (register : Register) (amount : UInt64) :
    register.turn amount = Row.rotateRight register amount := by
  -- The shifts and the join all act within the lanes.
  rfl

namespace Lanes

/-- The registers as the rows that the portable engine works on. -/
def rows (lanes : Lanes) : Rows := ⟨lanes.a, lanes.b, lanes.c, lanes.d⟩

/-- The registers are loaded with the rows that the portable engine starts from. -/
theorem rows_start (state : State) (counter : Counter) (final : Bool) :
    (start state counter final).rows = Rows.start state counter final := by
  -- The last lane of the mask is zero, so it leaves the last of the fixed words alone.
  have last : initialWords[7] ^^^ (0 : Word) = initialWords[7] := UInt64.xor_zero
  have mixed : (start state counter final).d =
      ⟨initialWords[4] ^^^ counter.low, initialWords[5] ^^^ counter.high,
        initialWords[6] ^^^ finalMask final, initialWords[7] ^^^ 0⟩ := rfl
  rw [rows, mixed, last]
  rfl

/-- Half of the mixing function does to the registers what it does to the rows. -/
theorem rows_mix (turnD turnB : UInt64) (lanes : Lanes) (words : Register) :
    (lanes.mix turnD turnB words).rows = lanes.rows.mix turnD turnB words := by
  -- The message words are added before the second row here, and after it there.
  have sum : lanes.a + words + lanes.b = lanes.a + lanes.b + words :=
    Row.add_right_comm lanes.a words lanes.b
  simp only [mix, rows, Rows.mix, sum, Register.turn_eq_rotateRight]

/-- The shuffles of the registers line up the diagonals. -/
theorem rows_diagonalize (lanes : Lanes) : lanes.diagonalize.rows = lanes.rows.diagonalize := by
  -- Each selector names, lane by lane, the lane that a turn to the left brings there.
  rfl

/-- The shuffles back bring the diagonals to their own lanes. -/
theorem rows_undiagonalize (lanes : Lanes) :
    lanes.undiagonalize.rows = lanes.rows.undiagonalize := by
  -- Each selector names, lane by lane, the lane that a turn to the right brings there.
  rfl

/-- The rows follow the registers through one round. -/
theorem rows_round (message : Message) (number : Nat) (lanes : Lanes) :
    (round message number lanes).rows = lanes.rows.round message number := by
  -- The six steps of a round correspond one to one.
  simp only [round, Rows.round, firstHalf, secondHalf, Rows.firstHalf, Rows.secondHalf,
    rows_undiagonalize, rows_diagonalize, rows_mix]

/-- The rows follow the registers through any number of rounds. -/
theorem rows_rounds (message : Message) (first count : Nat) (lanes : Lanes) :
    (rounds message first count lanes).rows = lanes.rows.rounds message first count := by
  -- Both run the first round and then the rest, numbered on from it.
  induction count generalizing first lanes with
  | zero => rfl
  | succ count ih => rw [rounds, ih, rows_round, Rows.rounds]

/-- Folding the registers into the loaded state folds the rows into it. -/
theorem store_eq_fold (lanes : Lanes) (state : State) :
    store ((lanes.a ^^^ lanes.c) ^^^ load state 0) ((lanes.b ^^^ lanes.d) ^^^ load state 4) =
      lanes.rows.fold state := by
  -- The state comes last here, and first there.
  rw [Row.xor_comm _ (load state 0), Row.xor_comm _ (load state 4)]
  rfl

/-- The vector engine leaves the state that the portable one does. -/
theorem compress_eq_rows (params : Params) : compress params = Rows.compress params := by
  -- The loaded registers are what the last ones are folded into.
  have folded := store_eq_fold
    (rounds params.block.words 0 params.rounds.toNat
      (start params.state params.counter params.final)) params.state
  rw [rows_rounds, rows_start] at folded
  exact folded

end Lanes

namespace Engine

/-- Every engine leaves the state that the portable one does, on every machine. -/
theorem compress_eq_rows (machine : Machine) (engine : Engine) (params : Params) :
    engine.compress machine params = Rows.compress params := by
  -- Without its registers, a vector engine gives way to the portable one anyway.
  cases engine with
  | portable => rfl
  | avx2 => simp only [compress, Lanes.compress_eq_rows, ite_self]
  | neon => simp only [compress, Pairs.compress_eq_lanes, Lanes.compress_eq_rows, ite_self]

/-- The vector engine leaves the portable one's states, and no chain shows which engines ran its steps. -/
theorem states_eq_portable :
    (∀ params, Lanes.compress params = Rows.compress params) ∧
    ∀ (machine : Machine) (state : State) (steps : List (Engine × Params)),
      Chain.states (compress machine) state steps =
        Chain.states (fun _ params => Rows.compress params) state steps := by
  refine ⟨Lanes.compress_eq_rows, ?_⟩
  intro machine state steps
  -- The steps are walked together, since each starts from the state that the one before has left.
  induction steps generalizing state with
  | nil => rfl
  | cons step rest ih =>
    obtain ⟨engine, params⟩ := step
    simp only [Chain.states, compress_eq_rows, ih]

end Engine

end Blake2F
