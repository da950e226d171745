import Blake2F.Engine.Rows

/-! Every step of a round can be undone: sums by differences, turns by turns to the other side, and half of
the mixing function by taking its four assignments back, last one first. -/

namespace Blake2F

namespace Word

/-- Turns the bits of a word to the left by an amount strictly between zero and the width. -/
def rotateLeft (word : Word) (amount : UInt64) : Word := word.rotateRight (64 - amount)

/-- Two turns that make up a full one leave the word as it was. -/
theorem rotateRight_rotateRight (word : Word) {first second : UInt64} (positive : 0 < first.toNat)
    (further : 0 < second.toNat) (whole : first.toNat + second.toNat = 64) :
    (word.rotateRight first).rotateRight second = word := by
  -- The two turns are compared bit by bit.
  apply UInt64.toBitVec_inj.mp
  rw [rotateRight_toBitVec _ _ further (by omega), rotateRight_toBitVec _ _ positive (by omega)]
  apply BitVec.eq_of_getElem_eq
  intro i inside
  simp only [BitVec.getElem_rotateRight, Nat.mod_eq_of_lt (show first.toNat < 64 by omega),
    Nat.mod_eq_of_lt (show second.toNat < 64 by omega)]
  -- The lowest bits leave at the bottom in the first turn, all others in the second.
  by_cases low : i < first.toNat
  · have early : i < 64 - second.toNat := by omega
    have late : ¬ second.toNat + i < 64 - first.toNat := by omega
    have back : second.toNat + i - (64 - first.toNat) = i := by omega
    simp [early, late, back]
  · have early : ¬ i < 64 - second.toNat := by omega
    have late : i - (64 - second.toNat) < 64 - first.toNat := by omega
    have back : first.toNat + (i - (64 - second.toNat)) = i := by omega
    simp [early, late, back]

variable (word : Word) {amount : UInt64} (positive : 0 < amount.toNat) (within : amount.toNat < 64)

/-- The rest of a full turn, as a number. -/
private theorem toNat_rest (within : amount.toNat < 64) :
    (64 - amount).toNat = 64 - amount.toNat := by
  -- The amount is below the width, so the difference does not wrap around.
  have le : amount ≤ 64 := UInt64.le_iff_toNat_le.mpr (Nat.le_of_lt within)
  rw [UInt64.toNat_sub_of_le _ _ le]
  rfl

include positive within

/-- A turn to the left undoes the turn to the right. -/
theorem rotateLeft_rotateRight : (word.rotateRight amount).rotateLeft amount = word := by
  -- The two amounts make up a full turn.
  have rest := toNat_rest within
  exact rotateRight_rotateRight word positive (by omega) (by omega)

/-- A turn to the right undoes the turn to the left. -/
theorem rotateRight_rotateLeft : (word.rotateLeft amount).rotateRight amount = word := by
  -- The rest of a full turn comes first here.
  have rest := toNat_rest within
  exact rotateRight_rotateRight word (by omega) positive (by omega)

end Word

namespace Row

/-- Differences wrap around within each lane. -/
instance : Sub Row := ⟨zipWith (· - ·)⟩

/-- Turns the bits of every lane to the left by the same amount. -/
def rotateLeft (row : Row) (amount : UInt64) : Row := row.map (Word.rotateLeft · amount)

variable (left right : Row)

/-- A row added is taken away again. -/
@[simp] theorem add_sub_cancel : left + right - right = left :=
  -- Sums and differences wrap around alike, so they cancel in every lane.
  (Row.mk.injEq ..).mpr ⟨UInt64.add_sub_cancel _ _, UInt64.add_sub_cancel _ _,
    UInt64.add_sub_cancel _ _, UInt64.add_sub_cancel _ _⟩

/-- A row taken away is added again. -/
@[simp] theorem sub_add_cancel : left - right + right = left :=
  -- No lane borrows from another.
  (Row.mk.injEq ..).mpr ⟨UInt64.sub_add_cancel _ _, UInt64.sub_add_cancel _ _,
    UInt64.sub_add_cancel _ _, UInt64.sub_add_cancel _ _⟩

/-- Comparing twice with the same row leaves the bits as they were. -/
@[simp] theorem xor_xor_cancel : left ^^^ right ^^^ right = left := by
  -- A word compared with itself is zero.
  have lane (x y : Word) : x ^^^ y ^^^ y = x := by
    rw [UInt64.xor_assoc, UInt64.xor_self, UInt64.xor_zero]
  exact (Row.mk.injEq ..).mpr ⟨lane _ _, lane _ _, lane _ _, lane _ _⟩

variable (row : Row) {amount : UInt64} (positive : 0 < amount.toNat) (within : amount.toNat < 64)

include positive within

/-- Turning the bits to the left undoes turning them to the right. -/
theorem rotateLeft_rotateRight : (row.rotateRight amount).rotateLeft amount = row := by
  -- Every lane turns by the same amount.
  have lane (word : Word) := Word.rotateLeft_rotateRight word positive within
  exact (Row.mk.injEq ..).mpr ⟨lane _, lane _, lane _, lane _⟩

/-- Turning the bits to the right undoes turning them to the left. -/
theorem rotateRight_rotateLeft : (row.rotateLeft amount).rotateRight amount = row := by
  -- The lanes turn back one by one.
  have lane (word : Word) := Word.rotateRight_rotateLeft word positive within
  exact (Row.mk.injEq ..).mpr ⟨lane _, lane _, lane _, lane _⟩

end Row

namespace Rows

/-- Takes half of the mixing function back, given the message words that it was fed. -/
def unmix (turnD turnB : UInt64) (rows : Rows) (words : Row) : Rows :=
  -- The row changed last is restored first, from the rows as they were when it was changed.
  let b := rows.b.rotateLeft turnB ^^^ rows.c
  let c := rows.c - rows.d
  let d := rows.d.rotateLeft turnD ^^^ rows.a
  let a := rows.a - words - b
  ⟨a, b, c, d⟩

section

variable {turnD turnB : UInt64} (rows : Rows) (words : Row)
  (positiveD : 0 < turnD.toNat) (withinD : turnD.toNat < 64)
  (positiveB : 0 < turnB.toNat) (withinB : turnB.toNat < 64)

include positiveD withinD positiveB withinB

/-- Half of the mixing function is undone by taking it back. -/
theorem unmix_mix : (rows.mix turnD turnB words).unmix turnD turnB words = rows := by
  -- Each row is restored from rows that the assignments after it have left alone.
  simp only [mix, unmix, Row.rotateLeft_rotateRight _ positiveD withinD,
    Row.rotateLeft_rotateRight _ positiveB withinB, Row.xor_xor_cancel, Row.add_sub_cancel]

/-- Mixing again brings back rows that have been taken back. -/
theorem mix_unmix : (rows.unmix turnD turnB words).mix turnD turnB words = rows := by
  -- The four assignments are made anew, the first one first.
  simp only [mix, unmix, Row.rotateRight_rotateLeft _ positiveD withinD,
    Row.rotateRight_rotateLeft _ positiveB withinB, Row.xor_xor_cancel, Row.sub_add_cancel]

end

/-- Takes the first half of the mixing function back. -/
def undoFirstHalf (rows : Rows) (words : Row) : Rows := rows.unmix 32 24 words

/-- Takes the second half of the mixing function back. -/
def undoSecondHalf (rows : Rows) (words : Row) : Rows := rows.unmix 16 63 words

variable (rows : Rows) (words : Row)

/-- Taking the first half back undoes it. -/
@[simp] theorem undoFirstHalf_firstHalf : (rows.firstHalf words).undoFirstHalf words = rows :=
  -- Its amounts lie strictly between zero and the width.
  unmix_mix rows words (by decide) (by decide) (by decide) (by decide)

/-- The first half brings back the rows that it was taken back from. -/
@[simp] theorem firstHalf_undoFirstHalf : (rows.undoFirstHalf words).firstHalf words = rows :=
  -- The amounts are the same as on the way there.
  mix_unmix rows words (by decide) (by decide) (by decide) (by decide)

/-- Taking the second half back undoes it. -/
@[simp] theorem undoSecondHalf_secondHalf : (rows.secondHalf words).undoSecondHalf words = rows :=
  -- Its amounts, too, lie strictly between zero and the width.
  unmix_mix rows words (by decide) (by decide) (by decide) (by decide)

/-- The second half brings back the rows that it was taken back from. -/
@[simp] theorem secondHalf_undoSecondHalf : (rows.undoSecondHalf words).secondHalf words = rows :=
  -- The amounts are the same as on the way there.
  mix_unmix rows words (by decide) (by decide) (by decide) (by decide)

/-- Diagonals that have been brought back can be lined up again. -/
@[simp] theorem diagonalize_undiagonalize : rows.undiagonalize.diagonalize = rows := by
  -- One, two and three lanes to the right and back leave each word in its lane.
  rfl

end Rows

end Blake2F
