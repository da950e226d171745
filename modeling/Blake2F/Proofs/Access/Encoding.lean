import Blake2F.Proofs.Access.Bytes
import Blake2F.Proofs.Command.Fields

/-! The encoding command with every access checked when it is made: whatever its texts hold, nothing is copied
out of range. -/

namespace Blake2F

namespace Encoding

/-- The chaining state of a text, whose words are copied out chunk by chunk. -/
def readState? (text : String) : Option (Except EncodingError State) :=
  match Hex.parse? text with
  | none => some (.error .invalidHex)
  | some bytes => do
    if bytes.length ≠ 64 then
      return .error (.stateLength bytes.length)
    -- Chunks that there is no word for are not looked at.
    let words ← Words.ofChunks? ((Bytes.chunks bytes).take 8)
    return .ok (Words.replaceFront (Vector.replicate 8 0) words)

/-- The message block of a text, which is copied over the beginning of a block of zeros. -/
def readBlock? (text : String) : Option (Except EncodingError Block) :=
  match Hex.parse? text with
  | none => some (.error .invalidHex)
  | some bytes => do
    if 128 < bytes.length then
      return .error (.blockLength bytes.length)
    let block ← Bytes.copyInto? (Vector.replicate 128 0) 0 bytes.length bytes
    return .ok block

variable (command : Encoding)

/-- The parameters that the command puts together; the chaining state is read first. -/
def params? : Option (Except EncodingError Params) := do
  match ← command.state.elim (some (.ok (Vector.replicate 8 0))) readState? with
  | .error error => return .error error
  | .ok state =>
    match ← command.block.elim (some (.ok (Vector.replicate 128 0))) readBlock? with
    | .error error => return .error error
    | .ok block =>
      return .ok {
        rounds := command.rounds
        state
        block
        counter := ⟨command.low, command.high⟩
        final := command.final }

/-- A state of 64 bytes falls into eight chunks, one for each word. -/
theorem readState?_eq_readState (text : String) : readState? text = some (readState text) := by
  -- The text is read first, then its length is tested, and only then is anything copied.
  rw [readState?, readState]
  cases Hex.parse? text with
  | none => rfl
  | some bytes =>
    dsimp only
    by_cases sized : bytes.length = 64
    · obtain ⟨vector, rfl⟩ := Bytes.exists_toList sized
      have whole : (Bytes.chunks vector.toList).take 8 = Bytes.chunks vector.toList := by
        apply List.take_of_length_le
        rw [Bytes.length_chunks, sized]
      rw [if_neg (not_not_intro sized), whole,
        Words.ofChunks?_eq_map fun _ => Bytes.length_of_mem_chunks, Bytes.toVector?_toList]
      exact congrArg (fun words => some (Except.ok words))
        (@Words.refill_toList 8 (Vector.replicate 8 0) vector)
    · rw [if_pos sized, Bytes.toVector?_eq_none_iff.mpr sized]
      rfl

/-- A block has room for every text that is not refused. -/
theorem readBlock?_eq_readBlock (text : String) : readBlock? text = some (readBlock text) := by
  -- A text that is too long is refused before it is copied.
  rw [readBlock?, readBlock]
  cases Hex.parse? text with
  | none => rfl
  | some bytes =>
    dsimp only
    by_cases within : bytes.length ≤ 128
    · obtain ⟨block, copied, written⟩ := (Bytes.writtenTo_zeros 128).copyInto? bytes.length bytes
        (Nat.zero_add bytes.length) within
      have same : block = Block.ofPart bytes within := by
        apply Vector.toList_inj.mp
        rw [written.toList, Block.ofPart, Vector.toList_mk, List.toList_toArray, List.nil_append]
      rw [if_neg (Nat.not_lt.mpr within), dif_pos within, copied, same]
      rfl
    · rw [if_pos (Nat.lt_of_not_le within), dif_neg within]
      rfl

/-- Whatever its texts hold, the command copies nothing out of range. -/
theorem params?_eq_params : command.params? = some command.params := by
  -- Each of the two texts is either read or not given.
  have state : command.state.elim (some (.ok (Vector.replicate 8 0))) readState? =
      some command.givenState := by
    rw [givenState]
    cases command.state with
    | none => rfl
    | some text => exact readState?_eq_readState text
  have block : command.block.elim (some (.ok (Vector.replicate 128 0))) readBlock? =
      some command.givenBlock := by
    rw [givenBlock]
    cases command.block with
    | none => rfl
    | some text => exact readBlock?_eq_readBlock text
  rw [params?, state, block, params_eq]
  -- The first text that is at fault ends both alike.
  cases command.givenState with
  | error error => rfl
  | ok state => cases command.givenBlock with
    | error error => rfl
    | ok block => rfl

end Encoding

end Blake2F
