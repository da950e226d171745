import Blake2F.Engine.Rows

/-! The columns of the working rows: what a step does to the rows, it does to each column on its own. -/

namespace Blake2F

/-- Four words that the mixing function works on together, by the letters of its own arguments. -/
structure Quad where
  -- The first takes up the message words; in each half, `d` is turned first and `b` last.
  a : Word
  b : Word
  c : Word
  d : Word
  deriving DecidableEq, Repr

namespace Quad

/-- Half of the mixing function, given the two amounts that `d` and `b` turn by. -/
def half (turnD turnB : UInt64) (quad : Quad) (word : Word) : Quad :=
  -- Each word is changed once, from the words already changed.
  let a := quad.a + quad.b + word
  let d := (quad.d ^^^ a).rotateRight turnD
  let c := quad.c + d
  let b := (quad.b ^^^ c).rotateRight turnB
  ⟨a, b, c, d⟩

/-- The mixing function, with two message words. -/
def mix (quad : Quad) (x y : Word) : Quad := (quad.half 32 24 x).half 16 63 y

end Quad

namespace Rows

/-- The four columns of the rows, in the order of their lanes. -/
def columns (rows : Rows) : List Quad :=
  [⟨rows.a.lane0, rows.b.lane0, rows.c.lane0, rows.d.lane0⟩,
    ⟨rows.a.lane1, rows.b.lane1, rows.c.lane1, rows.d.lane1⟩,
    ⟨rows.a.lane2, rows.b.lane2, rows.c.lane2, rows.d.lane2⟩,
    ⟨rows.a.lane3, rows.b.lane3, rows.c.lane3, rows.d.lane3⟩]

/-- Rows are known by their columns. -/
theorem columns_injective {left right : Rows} (same : left.columns = right.columns) :
    left = right := by
  -- The sixteen words are those of the columns, in another order.
  rcases left with ⟨⟨⟩, ⟨⟩, ⟨⟩, ⟨⟩⟩
  rcases right with ⟨⟨⟩, ⟨⟩, ⟨⟩, ⟨⟩⟩
  simp_all [columns]

/-- Half of the mixing function acts on each column with the message word of its lane. -/
theorem columns_mix (turnD turnB : UInt64) (rows : Rows) (words : Row) :
    (rows.mix turnD turnB words).columns =
      List.zipWith (Quad.half turnD turnB) rows.columns words.toVector.toList := by
  -- No lane of a row reads any other lane.
  rfl

/-- Both halves together act on each column as the mixing function. -/
theorem columns_halves (rows : Rows) (x y : Row) :
    ((rows.firstHalf x).secondHalf y).columns =
      List.zipWith (fun quad words => quad.mix words.1 words.2) rows.columns
        (x.toVector.toList.zip y.toVector.toList) := by
  -- The second half finds each column where the first has left it.
  rw [secondHalf, columns_mix, firstHalf, columns_mix]
  rfl

end Rows

end Blake2F
