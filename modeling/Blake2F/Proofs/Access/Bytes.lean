import Mathlib.Data.List.OfFn
import Blake2F.Bytes

/-! Accesses that are checked when they are made: a position, a range or a copy that does not fit gives nothing. -/

namespace Blake2F

/-- Writes the element at a position, which must be one of the vector's. -/
def put? {α : Type} {size : Nat} (vector : Vector α size) (position : Nat) (value : α) :
    Option (Vector α size) :=
  if inside : position < size then some (vector.set position value) else none

/-- A position within the vector is written. -/
theorem put?_of_lt {α : Type} {size : Nat} (vector : Vector α size) {position : Nat} (value : α)
    (inside : position < size) :
    put? vector position value = some (vector.set position value) := by
  -- The test is of nothing but the position.
  rw [put?, dif_pos inside]

/-- A vector of eight is known by its elements. -/
theorem exists_eight {α : Type} (vector : Vector α 8) :
    ∃ e0 e1 e2 e3 e4 e5 e6 e7 : α, vector = #v[e0, e1, e2, e3, e4, e5, e6, e7] := by
  -- They are looked up one by one.
  refine ⟨vector.get 0, vector.get 1, vector.get 2, vector.get 3, vector.get 4, vector.get 5,
    vector.get 6, vector.get 7, ?_⟩
  ext i inside
  rcases i with _ | _ | _ | _ | _ | _ | _ | _ | i
  all_goals first | rfl | omega

namespace Bytes

variable {size : Nat}

/-- The bytes of a range, which must neither end before it begins nor reach past the end. -/
def slice? (bytes : Vector UInt8 size) (first last : Nat) : Option Bytes :=
  if first ≤ last ∧ last ≤ size then some (bytes.toList.extract first last) else none

/-- Copies bytes over a range of the vector, which must be as long as they are. -/
def copyInto? (bytes : Vector UInt8 size) (first last : Nat) (data : Bytes) :
    Option (Vector UInt8 size) :=
  -- Both the range and the lengths are checked before the first byte is written.
  if within : first ≤ last ∧ last ≤ size ∧ data.length = last - first then
    some (overwrite bytes first data (by omega))
  else none

/-- The whole chunks of eight bytes; what is left behind the last one belongs to none. -/
def chunks (bytes : Bytes) : List Bytes :=
  List.ofFn fun i : Fin (bytes.length / 8) => bytes.extract (8 * i.val) (8 * i.val + 8)

/-- A range within the vector is a field of it. -/
theorem slice?_eq_field (bytes : Vector UInt8 size) (start width : Nat)
    (within : start + width ≤ size) :
    slice? bytes start (start + width) = some (field bytes start width within).toList := by
  -- The range ends no earlier than it begins, and within the vector.
  rw [slice?, if_pos ⟨Nat.le_add_right start width, within⟩, toList_field]

/-- Bytes that have room from a position on are written over as many. -/
theorem copyInto?_eq_overwrite (bytes : Vector UInt8 size) (start : Nat) (data : Bytes)
    (within : start + data.length ≤ size) :
    copyInto? bytes start (start + data.length) data = some (overwrite bytes start data within) := by
  -- The range is as long as the data, whatever they are.
  have fits : start ≤ start + data.length ∧ start + data.length ≤ size ∧
      data.length = start + data.length - start := by omega
  rw [copyInto?, dif_pos fits]

/-- There are as many chunks as the length has whole eights. -/
theorem length_chunks (bytes : Bytes) : (chunks bytes).length = bytes.length / 8 := by
  -- Each of them is listed once.
  rw [chunks, List.length_ofFn]

/-- No chunk is shorter than the others. -/
theorem length_of_mem_chunks {bytes chunk : Bytes} (member : chunk ∈ chunks bytes) :
    chunk.length = 8 := by
  -- A chunk is eight bytes from eight times its number on.
  rw [chunks, List.mem_ofFn] at member
  obtain ⟨i, rfl⟩ := member
  -- The last chunk ends where the whole chunks do, so all of it is there.
  have reached := i.isLt
  rw [List.extract_eq_take_drop, List.length_take, List.length_drop]
  omega

/-- Bytes have been written up to a position, and zeros are left behind it. -/
structure WrittenTo (bytes : Vector UInt8 size) (position : Nat) (written : Bytes) : Prop where
  /-- The position is where the bytes written end. -/
  length : written.length = position
  /-- What is not written yet is zero. -/
  toList : bytes.toList = written ++ List.replicate (size - position) 0

/-- In a vector of zeros, nothing has been written. -/
theorem writtenTo_zeros (size : Nat) : WrittenTo (Vector.replicate size 0) 0 [] :=
  ⟨rfl, Vector.toList_replicate⟩

variable {bytes : Vector UInt8 size} {written : Bytes} {first : Nat}

/-- A vector that is written to its end holds nothing else. -/
theorem WrittenTo.toList_eq (full : WrittenTo bytes size written) : bytes.toList = written := by
  -- No zeros are left behind what is written.
  rw [full.toList, Nat.sub_self, List.replicate_zero, List.append_nil]

/-- Bytes are copied behind those written before, as long as there is room for them. -/
theorem WrittenTo.copyInto? (before : WrittenTo bytes first written) (last : Nat) (data : Bytes)
    (long : first + data.length = last) (room : last ≤ size) :
    ∃ after, Bytes.copyInto? bytes first last data = some after ∧
      WrittenTo after last (written ++ data) := by
  -- The range is within the vector, so the copy is made.
  subst long
  refine ⟨_, copyInto?_eq_overwrite bytes first data room, ?_, ?_⟩
  · rw [List.length_append, before.length]
  · -- The data take the place of as many zeros.
    rw [toList_overwrite, before.toList, ← before.length, List.take_left, ← List.drop_drop,
      List.drop_left, List.drop_replicate, Nat.sub_sub]

/-- A single byte is put behind those written before, unless the vector is full. -/
theorem WrittenTo.put? (before : WrittenTo bytes first written) (byte : UInt8)
    (room : first < size) :
    ∃ after, Blake2F.put? bytes first byte = some after ∧
      WrittenTo after (first + 1) (written ++ [byte]) := by
  -- One byte is copied like any others.
  obtain ⟨after, copied, done⟩ := before.copyInto? (first + 1) [byte] rfl room
  refine ⟨after, ?_, done⟩
  -- To overwrite one byte is to set it.
  have alone := copyInto?_eq_overwrite bytes first [byte] room
  rw [put?_of_lt bytes byte room, ← copied]
  exact alone.symm

end Bytes

namespace Words

/-- The word that a chunk holds, least significant byte first. -/
def ofChunk (chunk : Bytes) : Word := UInt64.ofNat (Bytes.littleEndian chunk)

/-- Other words take the place of those in front, as far as there are any. -/
def replaceFront {count : Nat} (words : Vector Word count) (front : List Word) : Vector Word count :=
  Vector.ofFn fun i => front[i.val]?.getD (words.get i)

/-- The words of a byte string take the place of those in front, chunk by chunk. -/
def refill {count : Nat} (words : Vector Word count) (bytes : Bytes) : Vector Word count :=
  replaceFront words ((Bytes.chunks bytes).map ofChunk)

/-- The words of chunks, each of which is copied into a buffer of eight bytes first. -/
def ofChunks? : List Bytes → Option (List Word)
  | [] => some []
  | chunk :: rest => do
    let buffer ← Bytes.toVector? 8 chunk
    let words ← ofChunks? rest
    return Word.ofBytes buffer :: words

/-- Copies words one behind another over the bytes from a position on. -/
def copyInto? {size : Nat} (bytes : Vector UInt8 size) (start : Nat) :
    List Word → Option (Vector UInt8 size)
  | [] => some bytes
  | word :: rest => do
    let bytes ← Bytes.copyInto? bytes start (start + 8) (Word.toBytes word).toList
    copyInto? bytes (start + 8) rest

/-- The words laid out in a vector are those of its chunks, whatever stood in their place before. -/
theorem refill_toList {count : Nat} (words : Vector Word count) (bytes : Vector UInt8 (8 * count)) :
    refill words bytes.toList = ofBytes bytes := by
  -- There is a chunk for each word, and it is the field that the word is read from.
  ext i inside
  have chunk : i < bytes.toList.length / 8 := by
    rw [Vector.length_toList]
    omega
  rw [refill, replaceFront, ofBytes, Vector.getElem_ofFn, Vector.getElem_ofFn, Word.ofBytes,
    Bytes.toList_field, List.getElem?_map, Bytes.chunks, List.getElem?_ofFn, dif_pos chunk,
    Option.map_some, Option.getD_some, ofChunk]

/-- Chunks of eight bytes all fit into the buffer. -/
theorem ofChunks?_eq_map {chunks : List Bytes} (sized : ∀ chunk ∈ chunks, chunk.length = 8) :
    ofChunks? chunks = some (chunks.map ofChunk) := by
  -- Each chunk is copied in turn, and the others are all of eight bytes as well.
  induction chunks with
  | nil => rfl
  | cons chunk rest ih =>
    rw [List.forall_mem_cons] at sized
    obtain ⟨buffer, rfl⟩ := Bytes.exists_toList sized.1
    rw [ofChunks?, Bytes.toVector?_toList, ih sized.2]
    rfl

/-- Words are copied behind the bytes written before, as long as there is room for all of them. -/
theorem copyInto?_of_writtenTo {size : Nat} {bytes : Vector UInt8 size} {written : Bytes}
    {first : Nat} (before : Bytes.WrittenTo bytes first written) (last : Nat) (words : List Word)
    (long : first + 8 * words.length = last) (room : last ≤ size) :
    ∃ after, copyInto? bytes first words = some after ∧
      Bytes.WrittenTo after last
        (written ++ words.flatMap fun word => (Word.toBytes word).toList) := by
  -- Each word is copied behind the ones before it, which then count as written.
  induction words generalizing bytes written first with
  | nil =>
    rw [← long]
    exact ⟨bytes, rfl, by rwa [List.flatMap_nil, List.append_nil]⟩
  | cons word rest ih =>
    have width : (Word.toBytes word).toList.length = 8 := Vector.length_toList
    rw [List.length_cons] at long
    obtain ⟨next, copied, done⟩ :=
      before.copyInto? (first + 8) (Word.toBytes word).toList (congrArg (first + ·) width) (by omega)
    obtain ⟨after, others, all⟩ := ih done (by omega)
    refine ⟨after, ?_, ?_⟩
    · rw [copyInto?, copied]
      exact others
    · rwa [List.flatMap_cons, ← List.append_assoc]

end Words

end Blake2F
