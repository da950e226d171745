import Mathlib.Data.List.OfFn
import Blake2F.Payload

/-! The fields of a payload, read off a byte string by position, and the decoder in terms of them. -/

namespace Blake2F

/-- A vector lists the elements at its positions. -/
theorem toList_eq_ofFn {α : Type} {size : Nat} (vector : Vector α size) :
    vector.toList = List.ofFn vector.get := by
  -- The vector built from those elements is the vector itself.
  rw [← Vector.toList_ofFn]
  exact congrArg Vector.toList Vector.ofFn_getElem.symm

/-- Words are written one after another, each as its own bytes. -/
theorem Words.toList_toBytes {count : Nat} (words : Vector Word count) :
    (Words.toBytes words).toList =
      words.toList.flatMap fun word => (Word.toBytes word).toList := by
  -- The positions fall into runs of eight, one for each word.
  rw [Words.toBytes, Vector.toList_ofFn, List.ofFn_mul', toList_eq_ofFn words, List.flatMap,
    List.map_ofFn]
  congr 2
  funext i
  rw [Function.comp_apply, toList_eq_ofFn (Word.toBytes (words.get i))]
  congr 1
  funext j
  -- Within its run, a position names its own word and the byte of that word.
  have quotient : (8 * i.val + j.val) / 8 = i.val := by omega
  have remainder : (8 * i.val + j.val) % 8 = j.val := by omega
  simp [quotient, remainder, get_eq_getElem]

namespace Layout

/-- The number of rounds: the first four bytes, most significant first. -/
def rounds (bytes : Bytes) : Nat := Bytes.bigEndian (bytes.extract 0 4)

/-- The word in the eight bytes from a position on, least significant first. -/
def word (bytes : Bytes) (start : Nat) : Word :=
  UInt64.ofNat (Bytes.littleEndian (bytes.extract start (start + 8)))

/-- The byte at a position, or zero past the end. -/
def byte (bytes : Bytes) (position : Nat) : UInt8 := bytes[position]?.getD 0

/-- The byte that marks the final block. -/
def flag (bytes : Bytes) : UInt8 := byte bytes 212

/-- The parameters at their positions; every flag but zero marks the final block. -/
def params (bytes : Bytes) : Params where
  rounds := UInt32.ofNat (rounds bytes)
  state := Vector.ofFn fun i => word bytes (4 + 8 * i.val)
  block := Vector.ofFn fun i => byte bytes (68 + i.val)
  counter := ⟨word bytes 196, word bytes 204⟩
  final := flag bytes != 0

/-- The bytes of a chaining state: its words in their order, each least significant byte first. -/
def serialize (state : State) : Bytes :=
  state.toList.flatMap fun word => Bytes.littleEndianDigits 8 word.toNat

/-- Four bytes never hold more rounds than a round count can. -/
theorem rounds_lt (bytes : Bytes) : rounds bytes < UInt32.size := by
  -- A string with fewer than four bytes holds even less.
  have short : (bytes.extract 0 4).reverse.length ≤ 4 := by
    rw [List.length_reverse, List.extract_eq_take_drop, List.length_take]
    omega
  calc rounds bytes < Bytes.capacity (bytes.extract 0 4).reverse.length := Bytes.littleEndian_lt _
    _ ≤ Bytes.capacity 4 := Bytes.capacity_le short

/-- The encoding of a chaining state is its words, one after another. -/
theorem toList_encode (state : State) : state.encode.toList = serialize state := by
  rw [State.encode, Words.toList_toBytes, serialize]
  -- Each word is written as its own digits.
  simp only [Word.toList_toBytes]

/-- Every position of a payload holds a byte. -/
theorem byte_toList (payload : Payload) (position : Nat) (inside : position < 213) :
    byte payload.toList position = payload[position] := by
  -- The position lies before the end of the list.
  rw [byte, List.getElem?_eq_getElem (by simpa using inside), Option.getD_some,
    Vector.getElem_toList]

/-- The flag of a payload is its last byte. -/
theorem flag_toList (payload : Payload) : flag payload.toList = payload.flag :=
  -- It stands at position 212.
  byte_toList payload 212 (by decide)

/-- The round count of a payload is what its first four bytes hold. -/
theorem rounds_toList (payload : Payload) :
    UInt32.ofNat (rounds payload.toList) = payload.rounds := by
  -- The first field is cut out of the list.
  rw [rounds, Payload.rounds, Bytes.toList_field]

/-- The price of a payload is what its first four bytes hold. -/
theorem toNat_gasOfRounds (payload : Payload) :
    (gasOfRounds payload.rounds).toNat = rounds payload.toList := by
  -- Four bytes hold no number that a round count could not.
  rw [gasOfRounds_toNat, ← rounds_toList, UInt32.toNat_ofNat_of_lt' (rounds_lt _)]

/-- A word of a payload is read from a field of eight bytes. -/
theorem word_toList (payload : Payload) (start : Nat) (within : start + 8 ≤ 213) :
    word payload.toList start = Word.ofBytes (Bytes.field payload start 8 within) := by
  -- The field is cut out of the list.
  rw [word, Word.ofBytes, Bytes.toList_field]

/-- The parameters of a payload are decoded from the fields at their positions. -/
theorem params_toList (payload : Payload) :
    params payload.toList = {
      rounds := payload.rounds
      state := State.decode (Bytes.field payload 4 64)
      block := Bytes.field payload 68 128
      counter := ⟨Word.ofBytes (Bytes.field payload 196 8), Word.ofBytes (Bytes.field payload 204 8)⟩
      final := payload.flag != 0 } := by
  -- A word of the state is a field of a field, so its position counts from the start of the payload.
  have state : Vector.ofFn (fun i : Fin 8 => word payload.toList (4 + 8 * i.val)) =
      State.decode (Bytes.field payload 4 64) := by
    ext i within
    have nested : Bytes.field payload (4 + 8 * i) 8 (by omega) =
        Bytes.field (Bytes.field payload 4 64) (8 * i) 8 (by omega) := by
      ext j inside
      simp only [Bytes.getElem_field, Nat.add_assoc]
    rw [Vector.getElem_ofFn, word_toList payload _ (by omega), nested, State.decode,
      Words.ofBytes, Vector.getElem_ofFn]
  have block : Vector.ofFn (fun i : Fin 128 => byte payload.toList (68 + i.val)) =
      Bytes.field payload 68 128 := by
    ext i within
    rw [Vector.getElem_ofFn, Bytes.getElem_field, byte_toList payload _ (by omega)]
  simp only [params, rounds_toList, flag_toList, state, block,
    word_toList payload 196 (by decide), word_toList payload 204 (by decide)]

end Layout

/-- Decoding reads the fields at their positions, and fails for a refused flag only. -/
theorem Payload.decode_eq (payload : Payload) (policy : FlagPolicy) :
    Payload.decode payload policy =
      if policy.Refuses (Layout.flag payload.toList) then .error .wrongFlag
      else .ok (Layout.params payload.toList) := by
  rw [Payload.decode, FlagPolicy.read_eq, Layout.flag_toList, Layout.params_toList]
  -- Once the flag is read, nothing can go wrong.
  split
  · rfl
  · rfl

end Blake2F
