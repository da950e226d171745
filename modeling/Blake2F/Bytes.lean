/-! Words and byte strings: the rotation of a word, the number that bytes hold in either byte order, and the
words laid out in them. -/

namespace Blake2F

/-- A word of the compression function. -/
abbrev Word := UInt64

namespace Word

/-- Turns the bits of a word to the right by an amount strictly between zero and the width. -/
@[inline] def rotateRight (word : Word) (amount : UInt64) : Word :=
  -- The bits that leave at the bottom come back at the top.
  (word >>> amount) ||| (word <<< (64 - amount))

/-- The two shifts together are the rotation of the word's bits. -/
theorem rotateRight_toBitVec (word : Word) (amount : UInt64)
    (positive : 0 < amount.toNat) (within : amount.toNat < 64) :
    (rotateRight word amount).toBitVec = word.toBitVec.rotateRight amount.toNat := by
  -- Neither shift amount reaches the width, so reducing it modulo the width leaves it alone.
  simp only [rotateRight, UInt64.toBitVec_or, UInt64.toBitVec_shiftRight,
    UInt64.toBitVec_shiftLeft, BitVec.rotateRight_def, BitVec.ushiftRight_eq',
    BitVec.shiftLeft_eq', Nat.mod_eq_of_lt within]
  congr 2 <;> simp [BitVec.toNat_umod] <;> omega

end Word

/-- A byte string of any length. -/
abbrev Bytes := List UInt8

namespace Bytes

/-- The number whose digits to the base 256 are the bytes, least significant first. -/
def littleEndian : Bytes → Nat
  | [] => 0
  | byte :: rest => byte.toNat + 256 * littleEndian rest

/-- The lowest digits of a number to the base 256, least significant first. -/
def littleEndianDigits : Nat → Nat → Bytes
  | 0, _ => []
  | count + 1, value => UInt8.ofNat value :: littleEndianDigits count (value / 256)

/-- The number whose digits to the base 256 are the bytes, most significant first. -/
def bigEndian (bytes : Bytes) : Nat := littleEndian bytes.reverse

/-- The lowest digits of a number to the base 256, most significant first. -/
def bigEndianDigits (count value : Nat) : Bytes := (littleEndianDigits count value).reverse

/-- Each digit asked for is written. -/
@[simp] theorem length_littleEndianDigits (count value : Nat) :
    (littleEndianDigits count value).length = count := by
  -- One byte is written for each step of the count.
  induction count generalizing value with
  | zero => rfl
  | succ count ih => simp [littleEndianDigits, ih]

/-- Reversing the digits leaves their count alone. -/
@[simp] theorem length_bigEndianDigits (count value : Nat) :
    (bigEndianDigits count value).length = count := by
  -- The reversed list is as long as the list.
  simp [bigEndianDigits]

/-- How many numbers a count of bytes can hold. -/
def capacity : Nat → Nat
  | 0 => 1
  | count + 1 => 256 * capacity count

/-- More bytes hold no fewer numbers. -/
theorem capacity_le {count more : Nat} (fewer : count ≤ more) : capacity count ≤ capacity more := by
  -- Each byte past the count multiplies the numbers by 256.
  induction fewer with
  | refl => exact Nat.le_refl _
  | step _ ih =>
    rw [capacity]
    omega

/-- A byte string of a given length holds a number below the capacity of that length. -/
theorem littleEndian_lt (bytes : Bytes) : littleEndian bytes < capacity bytes.length := by
  -- Each byte is one digit below the base.
  induction bytes with
  | nil => decide
  | cons byte rest ih =>
    have digit := byte.toNat_lt
    simp only [littleEndian, List.length_cons, capacity]
    omega

/-- Reading the digits of a number gives back the part of it that they can hold. -/
theorem littleEndian_digits (count value : Nat) :
    littleEndian (littleEndianDigits count value) = value % capacity count := by
  -- The lowest digit is the remainder by the base, and the others are the digits of the quotient.
  induction count generalizing value with
  | zero => simp [littleEndian, littleEndianDigits, capacity, Nat.mod_one]
  | succ count ih =>
    have split : value % (256 * capacity count) =
        value % 256 + 256 * (value / 256 % capacity count) := Nat.mod_mul
    simp only [littleEndianDigits, littleEndian, ih, UInt8.toNat_ofNat']
    rw [capacity, split]

/-- Writing the number that a byte string holds gives back the byte string. -/
theorem digits_littleEndian (bytes : Bytes) :
    littleEndianDigits bytes.length (littleEndian bytes) = bytes := by
  -- The first byte is the remainder by the base and the rest holds the quotient.
  induction bytes with
  | nil => rfl
  | cons byte rest ih =>
    have digit := byte.toNat_lt
    have low : UInt8.ofNat (byte.toNat + 256 * littleEndian rest) = byte := by
      apply UInt8.toNat_inj.mp
      rw [UInt8.toNat_ofNat']
      omega
    have high : (byte.toNat + 256 * littleEndian rest) / 256 = littleEndian rest := by omega
    simp only [List.length_cons, littleEndian, littleEndianDigits, low, high, ih]

/-- The bytes from a position on, as many as the field is wide. -/
def field {size : Nat} (bytes : Vector UInt8 size) (start width : Nat)
    (within : start + width ≤ size := by decide) : Vector UInt8 width :=
  Vector.ofFn fun i => bytes[start + i.val]

/-- A field shows the bytes of the whole at its own positions. -/
@[simp] theorem getElem_field {size : Nat} (bytes : Vector UInt8 size) (start width i : Nat)
    (within : start + width ≤ size) (inside : i < width) :
    (field bytes start width within)[i] = bytes[start + i] := by
  -- The field is built position by position.
  simp [field]

/-- As a byte string, a field is cut out between its two ends. -/
theorem toList_field {size : Nat} (bytes : Vector UInt8 size) (start width : Nat)
    (within : start + width ≤ size) :
    (field bytes start width within).toList = bytes.toList.extract start (start + width) := by
  -- Both have the width of the field, and show the same byte at each position.
  apply List.ext_getElem
  · simp only [Vector.length_toList, List.extract_eq_take_drop, List.length_take, List.length_drop]
    omega
  · intro i _ _
    simp [List.extract_eq_take_drop]

/-- Writes bytes over those from a position on. -/
def overwrite {size : Nat} (bytes : Vector UInt8 size) (start : Nat) :
    (data : Bytes) → (within : start + data.length ≤ size) → Vector UInt8 size
  | [], _ => bytes
  | byte :: rest, within =>
    -- The bytes after the first have room from the next position on.
    have fits : start + 1 + rest.length ≤ size := by
      simp only [List.length_cons] at within
      omega
    overwrite (bytes.set start byte (by omega)) (start + 1) rest fits

/-- The bytes written stand at their own positions, and every other position keeps its byte. -/
theorem getElem_overwrite {size : Nat} (bytes : Vector UInt8 size) (start : Nat) (data : Bytes)
    (within : start + data.length ≤ size) (i : Nat) (inside : i < size) :
    (overwrite bytes start data within)[i] =
      if h : start ≤ i ∧ i - start < data.length then data[i - start] else bytes[i] := by
  -- The first byte is written at the start, and the others from the next position on.
  induction data generalizing bytes start with
  | nil => simp [overwrite]
  | cons byte rest ih =>
    rw [overwrite, ih]
    simp only [Vector.getElem_set, List.length_cons]
    by_cases own : start = i
    · subst own
      have past : ¬ start + 1 ≤ start := by omega
      simp [past]
    · by_cases later : start < i
      · have next : i - start = (i - (start + 1)) + 1 := by omega
        by_cases reached : i - (start + 1) < rest.length
        · simp [reached, next, Nat.le_of_lt later, show start + 1 ≤ i from later]
        · have beyond : ¬ i - start < rest.length + 1 := by omega
          simp [reached, beyond, own]
      · have outside : ¬ start ≤ i := by omega
        have past : ¬ start + 1 ≤ i := by omega
        simp [outside, past, own]

/-- The bytes written replace as many from the start on, and leave both sides of them alone. -/
theorem toList_overwrite {size : Nat} (bytes : Vector UInt8 size) (start : Nat) (data : Bytes)
    (within : start + data.length ≤ size) :
    (overwrite bytes start data within).toList =
      bytes.toList.take start ++ data ++ bytes.toList.drop (start + data.length) := by
  -- A position lies before the bytes written, among them or after them.
  apply List.ext_getElem
  · simp only [Vector.length_toList, List.length_append, List.length_take, List.length_drop]
    omega
  · intro i left right
    rw [Vector.getElem_toList, getElem_overwrite]
    simp only [List.getElem_append, List.length_append, List.length_take, Vector.length_toList]
    have room : min start size = start := by omega
    simp only [room]
    by_cases before : i < start
    · have outside : ¬ (start ≤ i ∧ i - start < data.length) := by omega
      have front : i < start + data.length := by omega
      simp [outside, front, before]
    · by_cases among : i - start < data.length
      · have front : i < start + data.length := by omega
        have inside : start ≤ i ∧ i - start < data.length := by omega
        simp [front, before, inside]
      · have outside : ¬ (start ≤ i ∧ i - start < data.length) := by omega
        have past : ¬ i < start + data.length := by omega
        have whole : start + data.length + (i - (start + data.length)) = i := by omega
        simp [outside, past, whole]

/-- A byte string of the right length, as a vector of that width. -/
def toVector? (size : Nat) (bytes : Bytes) : Option (Vector UInt8 size) :=
  if sized : bytes.length = size then some ⟨bytes.toArray, sized⟩ else none

/-- A vector is recovered from the byte string of its elements. -/
@[simp] theorem toVector?_toList {size : Nat} (bytes : Vector UInt8 size) :
    toVector? size bytes.toList = some bytes := by
  -- The vector's own list has its width.
  simp only [toVector?, Vector.length_toList, dif_pos]
  rfl

/-- Only a byte string of another length makes no vector. -/
theorem toVector?_eq_none_iff {size : Nat} {bytes : Bytes} :
    toVector? size bytes = none ↔ bytes.length ≠ size := by
  -- The length is all that is checked.
  simp [toVector?]

/-- Every byte string of the right length is the list of a vector. -/
theorem exists_toList {size : Nat} {bytes : Bytes} (sized : bytes.length = size) :
    ∃ vector : Vector UInt8 size, vector.toList = bytes := by
  -- The vector is built on the bytes themselves.
  exact ⟨⟨bytes.toArray, sized⟩, rfl⟩

end Bytes

namespace Word

/-- The word whose bytes are given least significant first. -/
def ofBytes (bytes : Vector UInt8 8) : Word := UInt64.ofNat (Bytes.littleEndian bytes.toList)

/-- The bytes of a word, least significant first. -/
def toBytes (word : Word) : Vector UInt8 8 :=
  -- Eight digits to the base 256 hold every word.
  ⟨(Bytes.littleEndianDigits 8 word.toNat).toArray, by simp⟩

/-- The bytes of a word are the eight lowest digits of its number. -/
theorem toList_toBytes (word : Word) :
    (toBytes word).toList = Bytes.littleEndianDigits 8 word.toNat := by
  -- The vector is built from that list.
  rw [toBytes, Vector.toList_mk, List.toList_toArray]

/-- Eight bytes hold as many numbers as there are words. -/
theorem capacity_eight : Bytes.capacity 8 = UInt64.size := rfl

/-- A word is read back from its bytes. -/
@[simp] theorem ofBytes_toBytes (word : Word) : ofBytes (toBytes word) = word := by
  -- Eight digits hold every number below the word's bound.
  apply UInt64.toNat_inj.mp
  simp only [ofBytes, toBytes, Vector.toList_mk, Bytes.littleEndian_digits, capacity_eight]
  have bound : word.toNat < UInt64.size := word.toNat_lt
  rw [Nat.mod_eq_of_lt bound, UInt64.toNat_ofNat_of_lt' bound]

/-- Eight bytes are read back from their word. -/
@[simp] theorem toBytes_ofBytes (bytes : Vector UInt8 8) : toBytes (ofBytes bytes) = bytes := by
  -- The number held by eight bytes is below the word's bound, so the word keeps it.
  have bound := Bytes.littleEndian_lt bytes.toList
  have digits := Bytes.digits_littleEndian bytes.toList
  rw [Vector.length_toList] at bound digits
  rw [capacity_eight] at bound
  apply Vector.toList_inj.mp
  rw [toList_toBytes, ofBytes, UInt64.toNat_ofNat_of_lt' bound, digits]

end Word

namespace Words

/-- The words laid out one after another in a byte string. -/
def ofBytes {count : Nat} (bytes : Vector UInt8 (8 * count)) : Vector Word count :=
  -- Word `i` takes the eight bytes from position `8 * i` on.
  Vector.ofFn fun i => Word.ofBytes (Bytes.field bytes (8 * i.val) 8 (by omega))

/-- The bytes of words laid out one after another. -/
def toBytes {count : Nat} (words : Vector Word count) : Vector UInt8 (8 * count) :=
  -- The quotient by eight names the word, and the remainder the byte within it.
  Vector.ofFn fun i => (Word.toBytes words[i.val / 8])[i.val % 8]

/-- Words are read back from their layout. -/
@[simp] theorem ofBytes_toBytes {count : Nat} (words : Vector Word count) :
    ofBytes (toBytes words) = words := by
  -- The field at a word's own position holds exactly the bytes of that word.
  ext i within
  have own : Bytes.field (toBytes words) (8 * i) 8 (by omega) = Word.toBytes words[i] := by
    ext j inside
    have quotient : (8 * i + j) / 8 = i := by omega
    have remainder : (8 * i + j) % 8 = j := by omega
    simp [toBytes, quotient, remainder]
  simp [ofBytes, own]

/-- A layout is read back from its words. -/
@[simp] theorem toBytes_ofBytes {count : Nat} (bytes : Vector UInt8 (8 * count)) :
    toBytes (ofBytes bytes) = bytes := by
  -- Position and remainder name the byte within the word that it belongs to.
  ext i within
  have whole : 8 * (i / 8) + i % 8 = i := by omega
  simp [toBytes, ofBytes, whole]

end Words

end Blake2F
