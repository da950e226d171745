import Blake2F.Schedule

/-! The compression function as the standard writes it, over one vector of sixteen words. -/

namespace Blake2F

/-- The working vector, one word at a time. -/
abbrev Flat := Vector Word 16

namespace Flat

/-- The vector before the first round: the chaining state, then the fixed words with counter and flag. -/
def start (state : State) (counter : Counter) (final : Bool) : Flat :=
  -- The counter changes words 12 and 13, and the final block inverts word 14.
  let v : Flat := state ++ initialWords
  let v := v.set 12 (v[12] ^^^ counter.low)
  let v := v.set 13 (v[13] ^^^ counter.high)
  if final then v.set 14 (~~~v[14]) else v

/-- The rotation of the standard: the bits that leave at the bottom come back at the top. -/
def rotate (word : Word) (amount : Nat) : Word := ⟨word.toBitVec.rotateRight amount⟩

/-- The mixing function on four words of the vector, with two message words. -/
def mix (v : Flat) (a b c d : Fin 16) (x y : Word) : Flat :=
  -- The first message word enters with the turns by 32 and 24.
  let v := v.set a (v[a] + v[b] + x)
  let v := v.set d (rotate (v[d] ^^^ v[a]) 32)
  let v := v.set c (v[c] + v[d])
  let v := v.set b (rotate (v[b] ^^^ v[c]) 24)
  -- The second message word enters with the turns by 16 and 63.
  let v := v.set a (v[a] + v[b] + y)
  let v := v.set d (rotate (v[d] ^^^ v[a]) 16)
  let v := v.set c (v[c] + v[d])
  v.set b (rotate (v[b] ^^^ v[c]) 63)

/-- Half of the mixing function, given the two amounts that words turn by. -/
def half (turnD turnB : UInt64) (v : Flat) (a b c d : Fin 16) (word : Word) : Flat :=
  let v := v.set a (v[a] + v[b] + word)
  let v := v.set d (rotate (v[d] ^^^ v[a]) turnD.toNat)
  let v := v.set c (v[c] + v[d])
  v.set b (rotate (v[b] ^^^ v[c]) turnB.toNat)

/-- The mixing function runs its two halves one after the other. -/
theorem mix_eq_halves (v : Flat) (a b c d : Fin 16) (x y : Word) :
    v.mix a b c d x y = (v.half 32 24 a b c d x).half 16 63 a b c d y := by
  -- The halves cut the eight assignments in the middle.
  rfl

/-- One round: the mixing function on each column and then on each diagonal. -/
def round (message : Message) (number : Nat) (v : Flat) : Flat :=
  let order := Schedule.order number
  -- The vector is a square of four rows; these are its columns.
  let v := v.mix 0 4 8 12 message[order[0]] message[order[1]]
  let v := v.mix 1 5 9 13 message[order[2]] message[order[3]]
  let v := v.mix 2 6 10 14 message[order[4]] message[order[5]]
  let v := v.mix 3 7 11 15 message[order[6]] message[order[7]]
  -- These are its diagonals.
  let v := v.mix 0 5 10 15 message[order[8]] message[order[9]]
  let v := v.mix 1 6 11 12 message[order[10]] message[order[11]]
  let v := v.mix 2 7 8 13 message[order[12]] message[order[13]]
  v.mix 3 4 9 14 message[order[14]] message[order[15]]

/-- The rounds below a number, in their order. -/
def rounds (message : Message) (v : Flat) : Nat → Flat
  | 0 => v
  | count + 1 => round message count (rounds message v count)

/-- Folds the vector into the chaining state. -/
def fold (v : Flat) (state : State) : State :=
  -- Each word is folded by the two words of the vector that lie eight apart.
  Vector.ofFn fun i => state[i] ^^^ (v[i.val] ^^^ v[i.val + 8])

/-- The chaining state after a compression. -/
def compress (params : Params) : State :=
  let v := start params.state params.counter params.final
  (rounds params.block.words v params.rounds.toNat).fold params.state

end Flat

end Blake2F
