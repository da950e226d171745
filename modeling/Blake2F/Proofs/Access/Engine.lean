import Blake2F.Proofs.Access.Bytes
import Blake2F.Engine

/-! The engines with every access checked when it is made: no round reads or writes a word that is not there. -/

namespace Blake2F

namespace Schedule

/-- The numbers of a round, whose place in the table is looked up. -/
def numbers? (round : Nat) : Option (Vector Nat 16) := numbers[round % 10]?

/-- Every round has its numbers, which are those of the words that its order takes. -/
theorem numbers?_eq_order (round : Nat) : numbers? round = some ((order round).map Fin.val) := by
  -- The order is made of the numbers found, each with its bound.
  have inside : round % 10 < 10 := Nat.mod_lt round (by decide)
  rw [numbers?, Vector.getElem?_eq_getElem inside, Option.some.injEq]
  ext place within
  simp [order, orders, get_eq_getElem]

end Schedule

namespace Row

/-- The word in a lane, of which there are four. -/
def lane? (row : Row) (lane : Nat) : Option Word := row.toVector[lane]?

/-- Writes the word in a lane, of which there are four. -/
def putLane? (row : Row) (lane : Nat) (word : Word) : Option Row := do
  let words ← put? row.toVector lane word
  return ofVector words

/-- Moves every word down by no more lanes than there are. -/
def turnLeft? (row : Row) (count : Nat) : Option Row :=
  if count ≤ 4 then some (row.turnLeft count) else none

/-- Moves every word up by no more lanes than there are. -/
def turnRight? (row : Row) (count : Nat) : Option Row :=
  if count ≤ 4 then some (row.turnRight count) else none

/-- Gathers by plain numbers: each must be found, and so must the word that it names. -/
def pick? (message : Message) (numbers : Vector Nat 16) (offset : Nat) : Option Row := do
  let first ← message[← numbers[offset]?]?
  let second ← message[← numbers[offset + 2]?]?
  let third ← message[← numbers[offset + 4]?]?
  let fourth ← message[← numbers[offset + 6]?]?
  return ⟨first, second, third, fourth⟩

variable (message : Message) (order : Order)

/-- The numbers of an order always name a word, so only the entries themselves can be missed. -/
theorem pick?_eq_gather? (offset : Nat) :
    pick? message (order.map Fin.val) offset = gather? message order offset := by
  -- An entry that is found is the number of a word, and the word is found with it.
  have entry (position : Nat) (next : Word → Option Row) :
      ((order.map Fin.val)[position]? >>= fun number => message[number]? >>= next) =
        order[position]? >>= fun number => next (message.get number) := by
    rw [Vector.getElem?_map]
    cases order[position]? with
    | none => rfl
    | some number =>
      show message[number.val]? >>= next = next (message.get number)
      rw [Vector.getElem?_eq_getElem number.isLt]
      rfl
  simp only [pick?, entry, gather?]

/-- Up to offset nine, all four entries and their words are found. -/
theorem pick?_eq_gather (offset : Fin 10) :
    pick? message (order.map Fin.val) offset.val = some (gather message order offset) := by
  -- What can be missed is known of the gather by orders.
  rw [pick?_eq_gather?, gather?_eq_gather]

/-- The four offsets that a round gathers from are among the ten that find everything. -/
theorem pick?_of_round :
    pick? message (order.map Fin.val) 0 = some (gather message order 0) ∧
      pick? message (order.map Fin.val) 1 = some (gather message order 1) ∧
      pick? message (order.map Fin.val) 8 = some (gather message order 8) ∧
      pick? message (order.map Fin.val) 9 = some (gather message order 9) := by
  -- They are zero, one, eight and nine.
  have found := pick?_eq_gather message order
  exact ⟨found 0, found 1, found 8, found 9⟩

/-- Nothing is gathered from an offset past nine, and only from there. -/
theorem gather?_eq_none_iff (offset : Nat) : gather? message order offset = none ↔ 9 < offset := by
  -- The last of the four entries lies six places behind the offset.
  constructor
  · intro nothing
    by_contra near
    -- From offset nine the furthest entry is the last one, so nothing is missed before.
    have found := gather?_eq_gather message order ⟨offset, by omega⟩
    rw [nothing] at found
    cases found
  · intro far
    have missed : order[offset + 6]? = none := Vector.getElem?_eq_none_iff.mpr (by omega)
    simp [gather?, missed]

/-- The furthest entry from offset ten would be the seventeenth. -/
example (message : Message) : gather? message (Schedule.order 0) 10 = none := rfl

end Row

/-- The words of a block are those of its chunks. -/
theorem Block.refill_toList (block : Block) (words : Message) :
    Words.refill words block.toList = block.words :=
  @Words.refill_toList 16 words block

/-- The words of a counter, the low one first. -/
def Counter.words (counter : Counter) : Vector Word 2 := #v[counter.low, counter.high]

namespace Rows

/-- The rows in the order of their letters. -/
def toVector (rows : Rows) : Vector Row 4 := #v[rows.a, rows.b, rows.c, rows.d]

/-- The rows before the first round, with every word looked up. -/
def start? (state : State) (counter : Counter) (final : Bool) : Option Rows := do
  return {
    a := ⟨← state[0]?, ← state[1]?, ← state[2]?, ← state[3]?⟩
    b := ⟨← state[4]?, ← state[5]?, ← state[6]?, ← state[7]?⟩
    c := ⟨← initialWords[0]?, ← initialWords[1]?, ← initialWords[2]?, ← initialWords[3]?⟩
    d := ⟨(← initialWords[4]?) ^^^ (← counter.words[0]?),
      (← initialWords[5]?) ^^^ (← counter.words[1]?),
      (← initialWords[6]?) ^^^ finalMask final, ← initialWords[7]?⟩ }

/-- Half of the mixing function in one lane, each word of which is looked up and written back. -/
def mixLane? (turnD turnB : UInt64) (words : Row) (rows : Rows) (lane : Nat) : Option Rows := do
  -- A word that has been changed is read back from its row.
  let a ← rows.a.putLane? lane ((← rows.a.lane? lane) + (← rows.b.lane? lane) + (← words.lane? lane))
  let d ← rows.d.putLane? lane (Word.rotateRight ((← rows.d.lane? lane) ^^^ (← a.lane? lane)) turnD)
  let c ← rows.c.putLane? lane ((← rows.c.lane? lane) + (← d.lane? lane))
  let b ← rows.b.putLane? lane (Word.rotateRight ((← rows.b.lane? lane) ^^^ (← c.lane? lane)) turnB)
  return ⟨a, b, c, d⟩

/-- Half of the mixing function, lane after lane. -/
def mix? (turnD turnB : UInt64) (rows : Rows) (words : Row) : Option Rows :=
  (List.range 4).foldlM (mixLane? turnD turnB words) rows

/-- Brings the words of each diagonal into one lane. -/
def diagonalize? (rows : Rows) : Option Rows := do
  return ⟨rows.a, ← rows.b.turnLeft? 1, ← rows.c.turnLeft? 2, ← rows.d.turnLeft? 3⟩

/-- Brings the words of each diagonal back to their own lanes. -/
def undiagonalize? (rows : Rows) : Option Rows := do
  return ⟨rows.a, ← rows.b.turnRight? 1, ← rows.c.turnRight? 2, ← rows.d.turnRight? 3⟩

/-- One round, which looks its numbers up first. -/
def round? (message : Message) (number : Nat) (rows : Rows) : Option Rows := do
  let numbers ← Schedule.numbers? number
  let rows ← rows.mix? 32 24 (← Row.pick? message numbers 0)
  let rows ← rows.mix? 16 63 (← Row.pick? message numbers 1)
  let rows ← rows.diagonalize?
  let rows ← rows.mix? 32 24 (← Row.pick? message numbers 8)
  let rows ← rows.mix? 16 63 (← Row.pick? message numbers 9)
  rows.undiagonalize?

/-- As many rounds as `count` says, numbered from `first` on. -/
def rounds? (message : Message) (first : Nat) : Nat → Rows → Option Rows
  | 0, rows => some rows
  | count + 1, rows => do rounds? message (first + 1) count (← round? message first rows)

/-- Folds one lane of all rows into the two words of the state that belong to it. -/
def foldLane? (rows : Rows) (state : State) (lane : Nat) : Option State := do
  -- The first half of the state lies under the first and third row, the second under the others.
  let low := (← (← rows.toVector[0]?).lane? lane) ^^^ (← (← rows.toVector[2]?).lane? lane)
  let state ← put? state lane ((← state[lane]?) ^^^ low)
  let high := (← (← rows.toVector[1]?).lane? lane) ^^^ (← (← rows.toVector[3]?).lane? lane)
  put? state (lane + 4) ((← state[lane + 4]?) ^^^ high)

/-- Folds the rows into the chaining state, lane after lane. -/
def fold? (rows : Rows) (state : State) : Option State :=
  (List.range 4).foldlM (foldLane? rows) state

/-- The chaining state after a compression. -/
def compress? (params : Params) : Option State := do
  let message := Words.refill (Vector.replicate 16 0) params.block.toList
  let rows ← start? params.state params.counter params.final
  let rows ← rounds? message 0 params.rounds.toNat rows
  rows.fold? params.state

/-- The rows find all the words that they start from. -/
theorem start?_eq_start (state : State) (counter : Counter) (final : Bool) :
    start? state counter final = some (start state counter final) := by
  -- There are eight words in the state and eight fixed ones, and two in the counter.
  rfl

/-- Half of the mixing function finds every lane. -/
theorem mix?_eq_mix (turnD turnB : UInt64) (rows : Rows) (words : Row) :
    rows.mix? turnD turnB words = some (rows.mix turnD turnB words) := by
  -- The loop runs through the four lanes that there are, and no lane reads what another has written.
  rfl

/-- The rows are folded into words that are all there. -/
theorem fold?_eq_fold (rows : Rows) (state : State) : rows.fold? state = some (rows.fold state) := by
  -- The two words of a lane lie four apart, so those of the last lane end the state.
  obtain ⟨w0, w1, w2, w3, w4, w5, w6, w7, rfl⟩ := exists_eight state
  rfl

/-- No row is turned by more lanes than it has. -/
theorem diagonalize?_eq_diagonalize (rows : Rows) : rows.diagonalize? = some rows.diagonalize := by
  -- The rows are turned by one, two and three lanes.
  rfl

/-- No row is turned back by more lanes than it has. -/
theorem undiagonalize?_eq_undiagonalize (rows : Rows) :
    rows.undiagonalize? = some rows.undiagonalize := by
  -- The turns back are by as many lanes.
  rfl

variable (message : Message)

/-- A round finds all that it looks up: the offsets that it gathers from are within reach. -/
theorem round?_eq_round (number : Nat) (rows : Rows) :
    round? message number rows = some (round message number rows) := by
  -- The numbers are found first, and then the words that they name.
  obtain ⟨first, second, third, fourth⟩ := Row.pick?_of_round message (Schedule.order number)
  rw [round?, Schedule.numbers?_eq_order]
  simp only [Option.bind_eq_bind, Option.bind_some, first, second, third, fourth, mix?_eq_mix,
    diagonalize?_eq_diagonalize, undiagonalize?_eq_undiagonalize, round, firstHalf, secondHalf]

/-- Any number of rounds find all that they look up. -/
theorem rounds?_eq_rounds (first count : Nat) (rows : Rows) :
    rounds? message first count rows = some (rounds message first count rows) := by
  -- Each round leaves the rows that the next one starts from.
  induction count generalizing first rows with
  | zero => rfl
  | succ count ih =>
    rw [rounds?, round?_eq_round]
    exact ih (first + 1) (round message first rows)

/-- A compression by the portable engine misses no word. -/
theorem compress?_eq_compress (params : Params) : compress? params = some (compress params) := by
  -- The words of the block come from its chunks, of which there are sixteen.
  rw [compress?, start?_eq_start, params.block.refill_toList]
  simp only [Option.bind_eq_bind, Option.bind_some, rounds?_eq_rounds, fold?_eq_fold, compress]

end Rows

namespace Lanes

/-- Four consecutive words as one register, each of which must be there. -/
def load? (words : Vector Word 8) (position : Nat) : Option Register := do
  return ⟨← words[position]?, ← words[position + 1]?, ← words[position + 2]?, ← words[position + 3]?⟩

/-- The registers before the first round. -/
def start? (state : State) (counter : Counter) (final : Bool) : Option Lanes := do
  let mask : Register := ⟨← counter.words[0]?, ← counter.words[1]?, finalMask final, 0⟩
  return {
    a := ← load? state 0
    b := ← load? state 4
    c := ← load? initialWords 0
    d := (← load? initialWords 4) ^^^ mask }

/-- One round; the registers themselves have no position that could be missed. -/
def round? (message : Message) (number : Nat) (lanes : Lanes) : Option Lanes := do
  let numbers ← Schedule.numbers? number
  let lanes := lanes.firstHalf (← Row.pick? message numbers 0)
  let lanes := lanes.secondHalf (← Row.pick? message numbers 1)
  let lanes := lanes.diagonalize
  let lanes := lanes.firstHalf (← Row.pick? message numbers 8)
  let lanes := lanes.secondHalf (← Row.pick? message numbers 9)
  return lanes.undiagonalize

/-- As many rounds as `count` says, numbered from `first` on. -/
def rounds? (message : Message) (first : Nat) : Nat → Lanes → Option Lanes
  | 0, lanes => some lanes
  | count + 1, lanes => do rounds? message (first + 1) count (← round? message first lanes)

/-- The chaining state after a compression. -/
def compress? (params : Params) : Option State := do
  let message := Words.refill (Vector.replicate 16 0) params.block.toList
  let first ← start? params.state params.counter params.final
  let last ← rounds? message 0 params.rounds.toNat first
  return store ((last.a ^^^ last.c) ^^^ first.a) ((last.b ^^^ last.d) ^^^ first.b)

/-- The loads that fill the registers stay within the state and the fixed words. -/
theorem start?_eq_start (state : State) (counter : Counter) (final : Bool) :
    start? state counter final = some (start state counter final) := by
  -- Each of the two vectors is loaded from its first and from its fifth word.
  rfl

variable (message : Message)

/-- A round finds the numbers and the words that it gathers. -/
theorem round?_eq_round (number : Nat) (lanes : Lanes) :
    round? message number lanes = some (round message number lanes) := by
  -- The offsets are those of the portable engine.
  obtain ⟨first, second, third, fourth⟩ := Row.pick?_of_round message (Schedule.order number)
  rw [round?, Schedule.numbers?_eq_order]
  simp only [Option.bind_eq_bind, Option.bind_some, Option.pure_def, first, second, third, fourth,
    round]

/-- Any number of rounds find all that they look up. -/
theorem rounds?_eq_rounds (first count : Nat) (lanes : Lanes) :
    rounds? message first count lanes = some (rounds message first count lanes) := by
  -- Each round leaves the registers that the next one starts from.
  induction count generalizing first lanes with
  | zero => rfl
  | succ count ih =>
    rw [rounds?, round?_eq_round]
    exact ih (first + 1) (round message first lanes)

/-- A compression on registers of four lanes misses no word. -/
theorem compress?_eq_compress (params : Params) : compress? params = some (compress params) := by
  -- The words of the block come from its chunks.
  rw [compress?, start?_eq_start, params.block.refill_toList]
  simp only [Option.bind_eq_bind, Option.bind_some, Option.pure_def, rounds?_eq_rounds, compress]

end Lanes

/-- Two consecutive words as one register, both of which must be there. -/
def Pair.load? (words : Vector Word 8) (position : Nat) : Option Pair := do
  return ⟨← words[position]?, ← words[position + 1]?⟩

/-- Four consecutive words, two by two. -/
def Halves.load? (words : Vector Word 8) (position : Nat) : Option Halves := do
  return ⟨← Pair.load? words position, ← Pair.load? words (position + 2)⟩

namespace Pairs

/-- The registers before the first round. -/
def start? (state : State) (counter : Counter) (final : Bool) : Option Pairs := do
  let mask : Row := ⟨← counter.words[0]?, ← counter.words[1]?, finalMask final, 0⟩
  return {
    a := ← Halves.load? state 0
    b := ← Halves.load? state 4
    c := ← Halves.load? initialWords 0
    d := (← Halves.load? initialWords 4) ^^^ .ofRow mask }

/-- One round; the halves of a row have no position that could be missed. -/
def round? (message : Message) (number : Nat) (pairs : Pairs) : Option Pairs := do
  let numbers ← Schedule.numbers? number
  let pairs := pairs.firstHalf (.ofRow (← Row.pick? message numbers 0))
  let pairs := pairs.secondHalf (.ofRow (← Row.pick? message numbers 1))
  let pairs := pairs.diagonalize
  let pairs := pairs.firstHalf (.ofRow (← Row.pick? message numbers 8))
  let pairs := pairs.secondHalf (.ofRow (← Row.pick? message numbers 9))
  return pairs.undiagonalize

/-- As many rounds as `count` says, numbered from `first` on. -/
def rounds? (message : Message) (first : Nat) : Nat → Pairs → Option Pairs
  | 0, pairs => some pairs
  | count + 1, pairs => do rounds? message (first + 1) count (← round? message first pairs)

/-- The chaining state after a compression. -/
def compress? (params : Params) : Option State := do
  let message := Words.refill (Vector.replicate 16 0) params.block.toList
  let first ← start? params.state params.counter params.final
  let last ← rounds? message 0 params.rounds.toNat first
  return store ((last.a ^^^ last.c) ^^^ first.a) ((last.b ^^^ last.d) ^^^ first.b)

/-- The loads that fill the registers stay within the state and the fixed words. -/
theorem start?_eq_start (state : State) (counter : Counter) (final : Bool) :
    start? state counter final = some (start state counter final) := by
  -- Each of the two vectors is loaded from its first and from its fifth word.
  rfl

variable (message : Message)

/-- A round finds the numbers and the words that it gathers. -/
theorem round?_eq_round (number : Nat) (pairs : Pairs) :
    round? message number pairs = some (round message number pairs) := by
  -- The offsets are those of the other engines.
  obtain ⟨first, second, third, fourth⟩ := Row.pick?_of_round message (Schedule.order number)
  rw [round?, Schedule.numbers?_eq_order]
  simp only [Option.bind_eq_bind, Option.bind_some, Option.pure_def, first, second, third, fourth,
    round]

/-- Any number of rounds find all that they look up. -/
theorem rounds?_eq_rounds (first count : Nat) (pairs : Pairs) :
    rounds? message first count pairs = some (rounds message first count pairs) := by
  -- Each round leaves the registers that the next one starts from.
  induction count generalizing first pairs with
  | zero => rfl
  | succ count ih =>
    rw [rounds?, round?_eq_round]
    exact ih (first + 1) (round message first pairs)

/-- A compression misses no word, whatever it is given. -/
theorem compress?_eq_compress (params : Params) : compress? params = some (compress params) := by
  -- The words of the block come from its chunks.
  rw [compress?, start?_eq_start, params.block.refill_toList]
  simp only [Option.bind_eq_bind, Option.bind_some, Option.pure_def, rounds?_eq_rounds, compress]

end Pairs

namespace Engine

/-- The chaining state after a compression by an engine, or by the portable one where it is not available. -/
def compress? (machine : Machine) : Engine → Params → Option State
  | avx2, params => if machine.avx2 then Lanes.compress? params else Rows.compress? params
  | neon, params => if machine.neon then Pairs.compress? params else Rows.compress? params
  | portable, params => Rows.compress? params

/-- No engine misses a word, on any machine. -/
theorem compress?_eq_compress (machine : Machine) (engine : Engine) (params : Params) :
    engine.compress? machine params = some (engine.compress machine params) := by
  -- The machine only decides which of two engines runs, and neither of them misses any.
  cases engine with
  | portable => exact Rows.compress?_eq_compress params
  | avx2 =>
    rw [compress?, compress, Lanes.compress?_eq_compress, Rows.compress?_eq_compress]
    exact (apply_ite some _ _ _).symm
  | neon =>
    rw [compress?, compress, Pairs.compress?_eq_compress, Rows.compress?_eq_compress]
    exact (apply_ite some _ _ _).symm

end Engine

end Blake2F
