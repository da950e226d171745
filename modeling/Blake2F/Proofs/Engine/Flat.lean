import Blake2F.Engine.Flat
import Blake2F.Proofs.Engine.Columns

/-! The portable engine computes the compression function of the standard: its rows follow the working
vector from round to round. -/

namespace Blake2F

namespace Flat

/-- The rotation of the standard is the one that joins two shifts. -/
theorem rotate_eq_rotateRight (word : Word) (amount : UInt64) (positive : 0 < amount.toNat)
    (within : amount.toNat < 64) : rotate word amount.toNat = word.rotateRight amount := by
  -- Words are equal once their bits are.
  apply UInt64.toBitVec_inj.mp
  rw [Word.rotateRight_toBitVec word amount positive within, rotate]

/-- The words of the vector at four positions. -/
def quad (v : Flat) (a b c d : Fin 16) : Quad := ⟨v.get a, v.get b, v.get c, v.get d⟩

/-- At its own positions, half of the mixing function leaves the half-mixed quad. -/
theorem quad_half (v : Flat) {turnD turnB : UInt64} {a b c d : Fin 16} (word : Word)
    (turnsD : 0 < turnD.toNat ∧ turnD.toNat < 64) (turnsB : 0 < turnB.toNat ∧ turnB.toNat < 64)
    (distinct : [a, b, c, d].Nodup) :
    (v.half turnD turnB a b c d word).quad a b c d = (v.quad a b c d).half turnD turnB word := by
  -- An assignment at one of four distinct positions is not read back at another.
  obtain ⟨positiveD, withinD⟩ := turnsD
  obtain ⟨positiveB, withinB⟩ := turnsB
  simp only [List.nodup_cons, List.mem_cons, List.not_mem_nil, or_false, not_or] at distinct
  obtain ⟨⟨ab, ac, ad⟩, ⟨bc, bd⟩, cd, -⟩ := distinct
  simp [half, quad, Quad.half, get_eq_getElem, Fin.val_inj, ab, ac, ad, bc, bd, cd, Ne.symm ab,
    Ne.symm ac, Ne.symm ad, Ne.symm bc, Ne.symm bd, Ne.symm cd,
    rotate_eq_rotateRight _ _ positiveD withinD, rotate_eq_rotateRight _ _ positiveB withinB]

/-- Every other position keeps its word. -/
theorem get_half_of_notMem (v : Flat) (turnD turnB : UInt64) {a b c d i : Fin 16}
    (word : Word) (outside : i ∉ [a, b, c, d]) :
    (v.half turnD turnB a b c d word).get i = v.get i := by
  -- None of the four assignments is at the position.
  simp only [List.mem_cons, List.not_mem_nil, or_false, not_or] at outside
  obtain ⟨ia, ib, ic, id⟩ := outside
  simp [half, get_eq_getElem, Fin.val_inj, Ne.symm ia, Ne.symm ib, Ne.symm ic, Ne.symm id]

/-- At its own positions, the mixing function leaves the mixed quad. -/
theorem quad_mix (v : Flat) {a b c d : Fin 16} (x y : Word) (distinct : [a, b, c, d].Nodup) :
    (v.mix a b c d x y).quad a b c d = (v.quad a b c d).mix x y := by
  -- The second half starts from the quad that the first has left.
  rw [mix_eq_halves, quad_half _ _ (by decide) (by decide) distinct,
    quad_half _ _ (by decide) (by decide) distinct, Quad.mix]

/-- A quad at other positions passes through the mixing function unchanged. -/
theorem quad_mix_of_disjoint (v : Flat) {a b c d e f g h : Fin 16} (x y : Word)
    (apart : ∀ i ∈ [e, f, g, h], i ∉ [a, b, c, d]) :
    (v.mix a b c d x y).quad e f g h = v.quad e f g h := by
  -- Both halves leave each of the four words alone.
  have kept {i : Fin 16} (outside : i ∉ [a, b, c, d]) : (v.mix a b c d x y).get i = v.get i := by
    rw [mix_eq_halves, get_half_of_notMem _ _ _ _ outside,
      get_half_of_notMem _ _ _ _ outside]
  simp only [quad, kept (apart e (by simp)), kept (apart f (by simp)), kept (apart g (by simp)),
    kept (apart h (by simp))]

/-- The vector as four rows of four words. -/
def rows (v : Flat) : Rows where
  a := ⟨v.get 0, v.get 1, v.get 2, v.get 3⟩
  b := ⟨v.get 4, v.get 5, v.get 6, v.get 7⟩
  c := ⟨v.get 8, v.get 9, v.get 10, v.get 11⟩
  d := ⟨v.get 12, v.get 13, v.get 14, v.get 15⟩

/-- The columns of the rows lie four words apart in the vector. -/
theorem columns_rows (v : Flat) :
    v.rows.columns =
      [v.quad 0 4 8 12, v.quad 1 5 9 13, v.quad 2 6 10 14, v.quad 3 7 11 15] := by
  -- Both sides list the same words.
  rfl

/-- Once the rows are turned, their columns are the diagonals of the vector. -/
theorem columns_diagonalize_rows (v : Flat) :
    v.rows.diagonalize.columns =
      [v.quad 0 5 10 15, v.quad 1 6 11 12, v.quad 2 7 8 13, v.quad 3 4 9 14] := by
  -- Each row after the first is turned by one lane more than the row before it.
  rfl

/-- The first half of a round: the mixing function on each column. -/
def mixColumns (v : Flat) (x y : Row) : Flat :=
  -- Lane `i` of the rows of message words feeds column `i`.
  let v := v.mix 0 4 8 12 x.lane0 y.lane0
  let v := v.mix 1 5 9 13 x.lane1 y.lane1
  let v := v.mix 2 6 10 14 x.lane2 y.lane2
  v.mix 3 7 11 15 x.lane3 y.lane3

/-- The second half of a round: the mixing function on each diagonal. -/
def mixDiagonals (v : Flat) (x y : Row) : Flat :=
  -- Lane `i` of the rows of message words feeds the diagonal that starts in column `i`.
  let v := v.mix 0 5 10 15 x.lane0 y.lane0
  let v := v.mix 1 6 11 12 x.lane1 y.lane1
  let v := v.mix 2 7 8 13 x.lane2 y.lane2
  v.mix 3 4 9 14 x.lane3 y.lane3

/-- A round of the standard takes its message words by every second entry of the order. -/
theorem round_eq (message : Message) (number : Nat) (v : Flat) :
    round message number v =
      (v.mixColumns (.gather message (Schedule.order number) 0)
        (.gather message (Schedule.order number) 1)).mixDiagonals
        (.gather message (Schedule.order number) 8)
        (.gather message (Schedule.order number) 9) := by
  -- The entries 0, 2, 4 and 6 feed the first halves of the columns, and 1, 3, 5 and 7 the second.
  rfl

/-- Mixing the columns one after another mixes them all at once. -/
theorem rows_mixColumns (v : Flat) (x y : Row) :
    (v.mixColumns x y).rows = (v.rows.firstHalf x).secondHalf y := by
  -- The four columns share no position, so each is mixed as if it were alone.
  apply Rows.columns_injective
  rw [Rows.columns_halves, columns_rows, columns_rows]
  simp (disch := decide) only [mixColumns, quad_mix_of_disjoint, quad_mix]
  rfl

/-- Mixing the diagonals one after another mixes the columns of the turned rows all at once. -/
theorem diagonalize_rows_mixDiagonals (v : Flat) (x y : Row) :
    (v.mixDiagonals x y).rows.diagonalize = (v.rows.diagonalize.firstHalf x).secondHalf y := by
  -- The four diagonals share no position either.
  apply Rows.columns_injective
  rw [Rows.columns_halves, columns_diagonalize_rows, columns_diagonalize_rows]
  simp (disch := decide) only [mixDiagonals, quad_mix_of_disjoint, quad_mix]
  rfl

/-- The rows follow the vector through one round. -/
theorem rows_round (message : Message) (number : Nat) (v : Flat) :
    (round message number v).rows = v.rows.round message number := by
  -- Turning the rows back at the end of the round undoes the turn that lines up the diagonals.
  rw [round_eq, Rows.round, ← rows_mixColumns, ← diagonalize_rows_mixDiagonals,
    Rows.undiagonalize_diagonalize]

/-- The rows follow the vector through any number of rounds. -/
theorem rows_rounds (message : Message) (v : Flat) (count : Nat) :
    (rounds message v count).rows = Rows.rounds message 0 count v.rows := by
  -- The last round comes off at the end of the vector's run, and so it must in the run of the rows.
  induction count with
  | zero => rfl
  | succ count ih => rw [rounds, rows_round, ih, Rows.rounds_succ, Nat.zero_add]

/-- The rows start where the vector does. -/
theorem rows_start (state : State) (counter : Counter) (final : Bool) :
    (start state counter final).rows = Rows.start state counter final := by
  -- The first eight words are the state and the last eight the fixed words, some of them changed.
  have low (i : Nat) (within : i < 8) : (state ++ initialWords : Flat)[i] = state[i] :=
    Vector.getElem_append_left within
  have high (i : Nat) (past : 8 ≤ i) (within : i < 16) :
      (state ++ initialWords : Flat)[i] = initialWords[i - 8] :=
    Vector.getElem_append_right within past
  have shown (v : Flat) : v.rows =
      ⟨⟨v[0], v[1], v[2], v[3]⟩, ⟨v[4], v[5], v[6], v[7]⟩, ⟨v[8], v[9], v[10], v[11]⟩,
        ⟨v[12], v[13], v[14], v[15]⟩⟩ := rfl
  cases final with
  | false => simp [start, shown, Rows.start, low, high, xor_finalMask]
  | true => simp [start, shown, Rows.start, low, high, xor_finalMask]

/-- The words that fold the state lie in one column, two rows apart. -/
theorem fold_rows (v : Flat) (state : State) : v.rows.fold state = v.fold state := by
  -- Eight words are compared one by one.
  ext i within
  rw [fold, Vector.getElem_ofFn]
  match i with
  | 0 | 1 | 2 | 3 | 4 | 5 | 6 | 7 => rfl

end Flat

end Blake2F
