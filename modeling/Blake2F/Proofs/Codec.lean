import Blake2F.Proofs.Layout

/-! Encoding and decoding undo each other: parameters come back from their payload, and a payload comes back
from its parameters but for the one byte that has several spellings. -/

namespace Blake2F

namespace Bytes

/-- Reading the digits of a number, most significant first, gives back the part that they can hold. -/
theorem bigEndian_digits (count value : Nat) :
    bigEndian (bigEndianDigits count value) = value % capacity count := by
  -- The reader turns the digits round once more than the writer has.
  rw [bigEndian, bigEndianDigits, List.reverse_reverse, littleEndian_digits]

/-- Writing the number that a byte string holds, most significant first, gives back the byte string. -/
theorem digits_bigEndian (bytes : Bytes) :
    bigEndianDigits bytes.length (bigEndian bytes) = bytes := by
  -- Turned round, the string has as many digits as before.
  have digits := digits_littleEndian bytes.reverse
  rw [List.length_reverse] at digits
  rw [bigEndian, bigEndianDigits, digits, List.reverse_reverse]

section

variable {front back size : Nat}

/-- The field of the whole width is the string itself. -/
theorem field_whole (bytes : Vector UInt8 size) :
    field bytes 0 size (Nat.le_of_eq (Nat.zero_add size)) = bytes := by
  -- Counted from zero, every position is its own.
  apply Vector.ext
  intro i inside
  rw [getElem_field]
  simp only [Nat.zero_add]

/-- A field that ends before the second part begins is one of the first part. -/
theorem field_append_left (left : Vector UInt8 front) (right : Vector UInt8 back)
    (start width : Nat) (within : start + width ≤ front) :
    field (left ++ right) start width (Nat.le_add_right_of_le within) =
      field left start width within := by
  -- All its positions lie before the second part.
  apply Vector.ext
  intro i inside
  have before : start + i < front := by omega
  rw [getElem_field, getElem_field, Vector.getElem_append_left before]

/-- The field that begins where the first part ends is the second part. -/
theorem field_append_right (left : Vector UInt8 front) (right : Vector UInt8 back) :
    field (left ++ right) front back (Nat.le_refl _) = right := by
  -- Its positions are counted from where the first part ends.
  apply Vector.ext
  intro i inside
  have past : front ≤ front + i := Nat.le_add_right front i
  rw [getElem_field, Vector.getElem_append_right (by omega) past]
  simp only [Nat.add_sub_cancel_left]

/-- A position lies in a field once it is counted from the start of the field. -/
theorem getElem_eq_of_field_eq {left right : Vector UInt8 size} {start width : Nat}
    {within : start + width ≤ size} (same : field left start width within = field right start width within)
    {i : Nat} (from_start : start ≤ i) (before_end : i < start + width) :
    left[i] = right[i] := by
  -- The two fields show the same byte there.
  have inside : i - start < width := by omega
  have position : start + (i - start) = i := by omega
  have shown := congrArg (fun bytes => bytes[i - start]) same
  simpa only [getElem_field, position] using shown

end

end Bytes

namespace Payload

/-- Two payloads are equal once their six fields are. -/
theorem eq_of_fields_eq {left right : Payload}
    (rounds : Bytes.field left 0 4 = Bytes.field right 0 4)
    (state : Bytes.field left 4 64 = Bytes.field right 4 64)
    (block : Bytes.field left 68 128 = Bytes.field right 68 128)
    (low : Bytes.field left 196 8 = Bytes.field right 196 8)
    (high : Bytes.field left 204 8 = Bytes.field right 204 8)
    (flag : left.flag = right.flag) : left = right := by
  -- The fields lie one behind another and leave no position out.
  apply Vector.ext
  intro i inside
  by_cases first : i < 4
  · exact Bytes.getElem_eq_of_field_eq rounds (Nat.zero_le i) (by omega)
  by_cases second : i < 68
  · exact Bytes.getElem_eq_of_field_eq state (by omega) (by omega)
  by_cases third : i < 196
  · exact Bytes.getElem_eq_of_field_eq block (by omega) (by omega)
  by_cases fourth : i < 204
  · exact Bytes.getElem_eq_of_field_eq low (by omega) (by omega)
  by_cases fifth : i < 212
  · exact Bytes.getElem_eq_of_field_eq high (by omega) (by omega)
  have last : i = 212 := by omega
  subst last
  exact flag

/-- The payload with its flag written as the encoder writes it: zero, or one for any other byte. -/
def canonical (payload : Payload) : Payload :=
  payload.set 212 (if payload.flag = 0 then 0 else 1) (Nat.lt_succ_self 212)

end Payload

namespace Params

variable (params : Params)

/-- The round count is read back from its four bytes. -/
theorem bigEndian_roundBytes (rounds : UInt32) :
    UInt32.ofNat (Bytes.bigEndian (roundBytes rounds).toList) = rounds := by
  -- Four digits hold every round count.
  have bound : rounds.toNat < Bytes.capacity 4 := rounds.toNat_lt
  rw [roundBytes, Vector.toList_mk, List.toList_toArray, Bytes.bigEndian_digits,
    Nat.mod_eq_of_lt bound, UInt32.ofNat_toNat]

/-- The first four bytes of a payload are those of its round count. -/
theorem roundBytes_rounds (payload : Payload) :
    roundBytes payload.rounds = Bytes.field payload 0 4 := by
  -- The number that four bytes hold is below the bound of round counts, so nothing of it is lost.
  apply Vector.toList_inj.mp
  have digits := Bytes.digits_bigEndian (Bytes.field payload 0 4).toList
  rw [Vector.length_toList] at digits
  have bound : Bytes.bigEndian (Bytes.field payload 0 4).toList < UInt32.size := by
    rw [Bytes.toList_field]
    exact Layout.rounds_lt payload.toList
  rw [roundBytes, Vector.toList_mk, List.toList_toArray, Payload.rounds,
    UInt32.toNat_ofNat_of_lt' bound, digits]

/-- The encoding begins with the bytes of the round count. -/
theorem field_rounds_encode : Bytes.field params.encode 0 4 = roundBytes params.rounds := by
  -- Five parts lie behind the round count, and each is taken off in turn.
  rw [encode]
  iterate 5 rw [Bytes.field_append_left _ _ 0 4 (by decide)]
  rw [Bytes.field_whole]

/-- The chaining state lies behind the round count. -/
theorem field_state_encode : Bytes.field params.encode 4 64 = params.state.encode := by
  -- Four parts lie behind it, and the round count before it.
  rw [encode]
  iterate 4 rw [Bytes.field_append_left _ _ 4 64 (by decide)]
  rw [Bytes.field_append_right]

/-- The block lies behind the chaining state. -/
theorem field_block_encode : Bytes.field params.encode 68 128 = params.block := by
  -- Three parts lie behind it.
  rw [encode]
  iterate 3 rw [Bytes.field_append_left _ _ 68 128 (by decide)]
  rw [Bytes.field_append_right]

/-- The low word of the counter lies behind the block. -/
theorem field_low_encode : Bytes.field params.encode 196 8 = Word.toBytes params.counter.low := by
  -- Two parts lie behind it.
  rw [encode]
  iterate 2 rw [Bytes.field_append_left _ _ 196 8 (by decide)]
  rw [Bytes.field_append_right]

/-- The high word of the counter lies behind the low word. -/
theorem field_high_encode : Bytes.field params.encode 204 8 = Word.toBytes params.counter.high := by
  -- Only the flag lies behind it.
  rw [encode, Bytes.field_append_left _ _ 204 8 (by decide), Bytes.field_append_right]

/-- The flag comes last, and is zero or one. -/
theorem flag_encode : Payload.flag params.encode = if params.final then 1 else 0 := by
  -- It is the one byte of the last part.
  rw [Payload.flag, encode, Vector.getElem_append_right (by decide) (by decide)]
  rfl

end Params

namespace State

/-- A chaining state is read back from its bytes. -/
@[simp] theorem decode_encode (state : State) : decode state.encode = state := Words.ofBytes_toBytes state

/-- Bytes are read back from the chaining state that they hold. -/
@[simp] theorem encode_decode (bytes : Vector UInt8 64) : (decode bytes).encode = bytes :=
  -- The 64 bytes are those of eight words.
  @Words.toBytes_ofBytes 8 bytes

end State

namespace Payload

/-- The round count of a payload is that of the parameters it was encoded from. -/
theorem rounds_encode (params : Params) : rounds params.encode = params.rounds := by
  -- The first field holds it, most significant byte first.
  rw [rounds, Params.field_rounds_encode, Params.bigEndian_roundBytes]

/-- No policy refuses the flag of an encoding. -/
theorem not_refuses_flag_encode (policy : FlagPolicy) (params : Params) :
    ¬ policy.Refuses (flag params.encode) := by
  rw [Params.flag_encode]
  intro refused
  obtain ⟨-, zero, one⟩ := refused
  -- The encoder writes one of the two bytes that are never refused.
  cases final : params.final with
  | false => exact zero (by rw [final]; rfl)
  | true => exact one (by rw [final]; rfl)

/-- Parameters are decoded from their encoding under either policy. -/
theorem decode_encode (policy : FlagPolicy) (params : Params) :
    decode params.encode policy = .ok params := by
  have taken := not_refuses_flag_encode policy params
  rw [decode, FlagPolicy.read_eq, if_neg taken]
  -- Each field holds what the encoder has put there.
  have marked : (flag params.encode != 0) = params.final := by
    rw [Params.flag_encode]
    cases params.final with
    | false => rfl
    | true => rfl
  simp only [Bind.bind, Except.bind, Pure.pure, Except.pure, rounds_encode,
    Params.field_state_encode, Params.field_block_encode, Params.field_low_encode,
    Params.field_high_encode, marked, State.decode_encode, Word.ofBytes_toBytes]

end Payload

namespace Params

/-- Parameters are known by their encoding. -/
theorem encode_injective : Function.Injective encode := by
  -- They are decoded from it again.
  intro left right same
  have decoded := Payload.decode_encode .lenient left
  rw [same, Payload.decode_encode .lenient right] at decoded
  exact (Except.ok.inj decoded).symm

end Params

namespace Payload

variable {payload : Payload} {params : Params} {policy : FlagPolicy}

/-- A payload is decoded from the byte string of its bytes. -/
theorem decodeBytes_toList (payload : Payload) (policy : FlagPolicy) :
    decodeBytes payload.toList policy = decode payload policy := by
  -- The length is right, so it is only decoding that is left.
  rw [decodeBytes, Bytes.toVector?_toList]

/-- A refused flag is the only fault that a payload can have. -/
theorem decode_eq_error_iff {error : CallError} :
    decode payload policy = .error error ↔ error = .wrongFlag ∧ policy.Refuses payload.flag := by
  rw [FlagPolicy.Refuses, ← FlagPolicy.read_eq_error_iff, decode]
  -- Decoding fails where reading the flag does, and with the same error.
  cases policy.read payload.flag with
  | error fault => simp only [Bind.bind, Except.bind, Except.error.injEq]
  | ok final => simp only [Bind.bind, Except.bind, Pure.pure, Except.pure, reduceCtorEq]

/-- Only the flag is written anew, so every field before it stays. -/
theorem field_canonical (payload : Payload) (start width : Nat) (before : start + width ≤ 212) :
    Bytes.field payload.canonical start width (by omega) =
      Bytes.field payload start width (by omega) := by
  -- No position of the field is that of the flag.
  apply Vector.ext
  intro i inside
  have other : 212 ≠ start + i := by omega
  rw [Bytes.getElem_field, Bytes.getElem_field, canonical, Vector.getElem_set, if_neg other]

/-- The flag is zero where it was zero, and one elsewhere. -/
theorem flag_canonical (payload : Payload) :
    payload.canonical.flag = if payload.flag = 0 then 0 else 1 := by
  -- It is the byte that has been written.
  rw [flag, canonical, Vector.getElem_set_self]

/-- The canonical form marks the final block as the payload does. -/
theorem flag_canonical_eq_zero_iff (payload : Payload) :
    payload.canonical.flag = 0 ↔ payload.flag = 0 := by
  -- One is not zero, so writing it marks the block as before.
  rw [flag_canonical]
  by_cases zero : payload.flag = 0
  · simp only [zero, if_true]
  · simp only [zero, if_false, iff_false]
    decide

/-- A payload whose flag is zero or one already has its canonical form. -/
theorem canonical_eq_self (taken : ¬ FlagPolicy.strict.Refuses payload.flag) :
    payload.canonical = payload := by
  -- The byte that is written is the one that stands there.
  have same : (if payload.flag = 0 then 0 else 1) = payload.flag := by
    by_cases zero : payload.flag = 0
    · rw [if_pos zero, zero]
    · have one : payload.flag = 1 := by
        by_contra other
        exact taken ⟨rfl, zero, other⟩
      rw [if_neg zero, one]
  rw [canonical, same, flag, Vector.set_getElem_self]

/-- What a payload holds is encoded as its canonical form. -/
theorem encode_params (payload : Payload) :
    (Layout.params payload.toList).encode = payload.canonical := by
  rw [Layout.params_toList]
  -- The fields are compared one by one, each with the bytes that it was decoded from.
  apply eq_of_fields_eq
  · rw [Params.field_rounds_encode, field_canonical payload 0 4 (by decide),
      Params.roundBytes_rounds]
  · rw [Params.field_state_encode, field_canonical payload 4 64 (by decide), State.encode_decode]
  · rw [Params.field_block_encode, field_canonical payload 68 128 (by decide)]
  · rw [Params.field_low_encode, field_canonical payload 196 8 (by decide), Word.toBytes_ofBytes]
  · rw [Params.field_high_encode, field_canonical payload 204 8 (by decide), Word.toBytes_ofBytes]
  · rw [Params.flag_encode, flag_canonical]
    by_cases zero : payload.flag = 0
    · simp only [zero, bne_self_eq_false, if_true, Bool.false_eq_true, if_false]
    · simp only [bne_iff_ne.mpr zero, zero, if_true, if_false]

/-- A payload that is not refused decodes to the parameters that are encoded as its canonical form. -/
theorem decode_eq_ok_iff :
    decode payload policy = .ok params ↔
      ¬ policy.Refuses payload.flag ∧ params.encode = payload.canonical := by
  -- The policy decides whether anything is decoded, and the encoding tells what.
  rw [decode_eq, Layout.flag_toList]
  by_cases refused : policy.Refuses payload.flag
  · rw [if_pos refused]
    constructor
    · intro taken
      cases taken
    · intro both
      obtain ⟨taken, -⟩ := both
      exact absurd refused taken
  · rw [if_neg refused, Except.ok.injEq, ← encode_params]
    constructor
    · intro same
      subst same
      exact ⟨refused, rfl⟩
    · intro both
      obtain ⟨-, same⟩ := both
      exact (Params.encode_injective same).symm

/-- Payloads have one canonical form if they differ in the spelling of their flag at most. -/
theorem canonical_eq_iff (left right : Payload) :
    left.canonical = right.canonical ↔
      Bytes.field left 0 212 = Bytes.field right 0 212 ∧ (left.flag = 0 ↔ right.flag = 0) := by
  -- The canonical form keeps all bytes but the last, and whether that is zero.
  constructor
  · intro same
    constructor
    · rw [← field_canonical left 0 212 (by decide), same, field_canonical right 0 212 (by decide)]
    · rw [← flag_canonical_eq_zero_iff left, same, flag_canonical_eq_zero_iff right]
  · intro both
    obtain ⟨front, marks⟩ := both
    apply Vector.ext
    intro i inside
    by_cases last : i = 212
    · subst last
      have flags : left.canonical.flag = right.canonical.flag := by
        rw [flag_canonical, flag_canonical]
        simp only [marks]
      exact flags
    · have before : i < 212 := by omega
      have other : 212 ≠ i := Ne.symm last
      rw [canonical, canonical, Vector.getElem_set, if_neg other, Vector.getElem_set, if_neg other]
      exact Bytes.getElem_eq_of_field_eq front (Nat.zero_le i) (by omega)

/-- Two payloads hold the same parameters if both are taken and differ in the spelling of their flag at most. -/
theorem decode_same_iff (policy : FlagPolicy) (left right : Payload) :
    (∃ params, decode left policy = .ok params ∧ decode right policy = .ok params) ↔
      ¬ policy.Refuses left.flag ∧ ¬ policy.Refuses right.flag ∧
        Bytes.field left 0 212 = Bytes.field right 0 212 ∧ (left.flag = 0 ↔ right.flag = 0) := by
  -- Parameters are known by their encoding, which is the canonical form of either payload.
  rw [← canonical_eq_iff]
  constructor
  · intro shared
    obtain ⟨params, first, second⟩ := shared
    obtain ⟨leftTaken, leftForm⟩ := decode_eq_ok_iff.mp first
    obtain ⟨rightTaken, rightForm⟩ := decode_eq_ok_iff.mp second
    exact ⟨leftTaken, rightTaken, leftForm.symm.trans rightForm⟩
  · intro taken
    obtain ⟨leftTaken, rightTaken, same⟩ := taken
    have form := encode_params left
    exact ⟨_, decode_eq_ok_iff.mpr ⟨leftTaken, form⟩, decode_eq_ok_iff.mpr ⟨rightTaken, form.trans same⟩⟩

/-- Encoding and decoding undo each other, but for the spellings of the flag that the lenient policy takes. -/
theorem codec_exact (policy : FlagPolicy) :
    (∀ params : Params, decode params.encode policy = .ok params ∧
      decodeBytes params.encode.toList policy = .ok params ∧ rounds params.encode = params.rounds) ∧
    (∀ payload error, decode payload policy = .error error ↔
      error = .wrongFlag ∧ policy = .strict ∧ payload.flag ≠ 0 ∧ payload.flag ≠ 1) ∧
    (∀ payload params, decode payload policy = .ok params →
      params.rounds = rounds payload ∧ params.encode = payload.canonical ∧
        (policy = .strict → params.encode = payload)) ∧
    (∀ left right, (∃ params, decode left policy = .ok params ∧ decode right policy = .ok params) ↔
      ¬ policy.Refuses left.flag ∧ ¬ policy.Refuses right.flag ∧
        Bytes.field left 0 212 = Bytes.field right 0 212 ∧ (left.flag = 0 ↔ right.flag = 0)) := by
  -- The parts are those shown above, under the one policy that is given.
  refine ⟨?_, ?_, ?_, decode_same_iff policy⟩
  · intro params
    have decoded := decode_encode policy params
    exact ⟨decoded, (decodeBytes_toList params.encode policy).trans decoded, rounds_encode params⟩
  · intro payload error
    exact decode_eq_error_iff
  · intro payload params decoded
    obtain ⟨taken, form⟩ := decode_eq_ok_iff.mp decoded
    have count : params.rounds = rounds payload := by
      rw [← rounds_encode, form, rounds, rounds, field_canonical payload 0 4 (by decide)]
    refine ⟨count, form, ?_⟩
    intro strict
    subst strict
    rw [form, canonical_eq_self taken]

end Payload

end Blake2F
