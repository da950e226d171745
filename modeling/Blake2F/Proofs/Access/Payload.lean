import Blake2F.Call
import Blake2F.Proofs.Access.Engine
import Blake2F.Proofs.Layout

/-! Payloads and calls with every access checked when it is made: each field lies where it is read and written. -/

namespace Blake2F

/-- The address that ends in the bytes of a number, each of which is looked up. -/
def Address.ofWord? (word : Word) : Option Address := do
  let bytes := (Word.toBytes word).reverse
  return Vector.replicate 12 (0 : UInt8) ++
    #v[← bytes[0]?, ← bytes[1]?, ← bytes[2]?, ← bytes[3]?, ← bytes[4]?, ← bytes[5]?, ← bytes[6]?,
      ← bytes[7]?]

/-- The bytes of a chaining state, whose words are copied one behind another over zeros. -/
def State.encode? (state : State) : Option (Vector UInt8 64) :=
  Words.copyInto? (Vector.replicate 64 0) 0 state.toList

namespace Payload

/-- A field, copied from the range that it takes up. -/
def field? (payload : Payload) (start width : Nat) : Option (Vector UInt8 width) := do
  let part ← Bytes.slice? payload start (start + width)
  Bytes.toVector? width part

/-- The number of rounds that a payload asks for. -/
def rounds? (payload : Payload) : Option UInt32 := do
  return UInt32.ofNat (Bytes.bigEndian (← field? payload 0 4).toList)

/-- The parameters that a payload holds, or the reason why its flag is refused. -/
def decode? (payload : Payload) (policy : FlagPolicy) : Option (Except CallError Params) := do
  -- The last byte is read before all others, and a refused one is the end of it.
  match policy.read (← payload[212]?) with
  | .error error => return .error error
  | .ok final =>
    let words ← Bytes.slice? payload 4 68
    return .ok {
      rounds := ← rounds? payload
      state := Words.refill (Vector.replicate 8 0) words
      block := ← field? payload 68 128
      counter := ⟨Word.ofBytes (← field? payload 196 8), Word.ofBytes (← field? payload 204 8)⟩
      final }

/-- Checks the length of a byte string and decodes it. -/
def decodeBytes? (bytes : Bytes) (policy : FlagPolicy) : Option (Except CallError Params) :=
  match Bytes.toVector? 213 bytes with
  | none => some (.error .wrongLength)
  | some payload => decode? payload policy

end Payload

namespace Params

/-- The payload that holds the parameters, written field by field over zeros. -/
def encode? (params : Params) : Option Payload := do
  -- Each range begins where the one before it ends.
  let payload := Vector.replicate 213 0
  let payload ← Bytes.copyInto? payload 0 4 (roundBytes params.rounds).toList
  let payload ← Words.copyInto? payload 4 params.state.toList
  let payload ← Bytes.copyInto? payload 68 196 params.block.toList
  let payload ← Bytes.copyInto? payload 196 204 (Word.toBytes (← params.counter.words[0]?)).toList
  let payload ← Bytes.copyInto? payload 204 212 (Word.toBytes (← params.counter.words[1]?)).toList
  put? payload 212 (if params.final then 1 else 0)

/-- The bytes of the chaining state after a compression by an engine. -/
def compressWith? (machine : Machine) (engine : Engine) (params : Params) :
    Option (Vector UInt8 64) := do
  let state ← engine.compress? machine params
  State.encode? state

end Params

/-- Runs a payload under a gas limit. -/
def Call.run? (machine : Machine) (policy : FlagPolicy) (bytes : Bytes) (gasLimit : UInt64) :
    Option (Traced (Except CallError Output)) :=
  -- Nothing is read before the length is known to be right.
  match Bytes.toVector? 213 bytes with
  | none => some ⟨[.wrongLength bytes.length], .error .wrongLength⟩
  | some payload => do
    let rounds ← Payload.rounds? payload
    let gasUsed := gasOfRounds rounds
    if gasLimit < gasUsed then
      return ⟨[.outOfGas rounds gasLimit], .error .outOfGas⟩
    match ← Payload.decode? payload policy with
    | .error error => return ⟨[.wrongFlag (← payload[212]?)], .error error⟩
    | .ok params =>
      let bytes ← params.compressWith? machine (Engine.detect machine)
      return ⟨[.compressed rounds gasUsed], .ok ⟨gasUsed, bytes⟩⟩

/-- An address finds all eight bytes of its number. -/
theorem Address.ofWord?_eq_ofWord (word : Word) : ofWord? word = some (ofWord word) := by
  -- A word has exactly the bytes that are looked up.
  obtain ⟨e0, e1, e2, e3, e4, e5, e6, e7, same⟩ := exists_eight (Word.toBytes word).reverse
  rw [ofWord?, ofWord, same]
  rfl

/-- The words of a state take up its 64 bytes exactly. -/
theorem State.encode?_eq_encode (state : State) : state.encode? = some state.encode := by
  -- The words are copied over the zeros, from the first position to the last.
  obtain ⟨bytes, copied, done⟩ :=
    Words.copyInto?_of_writtenTo (Bytes.writtenTo_zeros 64) 64 state.toList (by simp) (by decide)
  rw [encode?, copied, Option.some.injEq]
  apply Vector.toList_inj.mp
  rw [done.toList_eq, encode, Words.toList_toBytes, List.nil_append]

namespace Payload

variable (payload : Payload)

/-- A field that ends within the payload is read. -/
theorem field?_eq_field (start width : Nat) (within : start + width ≤ 213) :
    field? payload start width = some (Bytes.field payload start width within) := by
  -- The range is there, and as long as the field is wide.
  rw [field?, Bytes.slice?_eq_field payload start width within]
  exact Bytes.toVector?_toList _

/-- The flag is the last byte of a payload. -/
theorem getElem?_flag : payload[212]? = some payload.flag :=
  Vector.getElem?_eq_getElem (by decide)

/-- The round count is read. -/
theorem rounds?_eq_rounds : rounds? payload = some payload.rounds := by
  -- Its four bytes come first.
  rw [rounds?, field?_eq_field payload 0 4 (by decide)]
  rfl

/-- Every field of a payload is read, unless the flag is refused. -/
theorem decode?_eq_decode (policy : FlagPolicy) :
    decode? payload policy = some (decode payload policy) := by
  -- The words of the state are taken from a range, and all else from fields.
  have words : Words.refill (Vector.replicate 8 0) (Bytes.field payload 4 64).toList =
      State.decode (Bytes.field payload 4 64) := @Words.refill_toList 8 _ (Bytes.field payload 4 64)
  have range : Bytes.slice? payload 4 68 = _ := Bytes.slice?_eq_field payload 4 64 (by decide)
  rw [decode?, getElem?_flag, decode]
  cases read : policy.read payload.flag with
  | error error =>
    simp only [Option.bind_eq_bind, Option.bind_some, read]
    rfl
  | ok final =>
    simp only [Option.bind_eq_bind, Option.bind_some, read, range, words, rounds?_eq_rounds,
      field?_eq_field payload 68 128 (by decide), field?_eq_field payload 196 8 (by decide),
      field?_eq_field payload 204 8 (by decide)]
    rfl

end Payload

namespace Params

variable (params : Params)

/-- The fields of a payload are written where those before them end, and the last one ends with the payload. -/
theorem encode?_eq_encode : params.encode? = some params.encode := by
  obtain ⟨_, rounds, done⟩ := (Bytes.writtenTo_zeros 213).copyInto? 4
    (roundBytes params.rounds).toList (by simp) (by decide)
  obtain ⟨_, state, done⟩ :=
    Words.copyInto?_of_writtenTo done 68 params.state.toList (by simp) (by decide)
  obtain ⟨_, block, done⟩ := done.copyInto? 196 params.block.toList (by simp) (by decide)
  obtain ⟨_, low, done⟩ :=
    done.copyInto? 204 (Word.toBytes params.counter.low).toList (by simp) (by decide)
  obtain ⟨_, high, done⟩ :=
    done.copyInto? 212 (Word.toBytes params.counter.high).toList (by simp) (by decide)
  obtain ⟨payload, final, done⟩ := done.put? (if params.final then 1 else 0) (by decide)
  have written : encode? params = some payload := by
    have counter : params.counter.words[0]? = some params.counter.low ∧
        params.counter.words[1]? = some params.counter.high := ⟨rfl, rfl⟩
    simp only [encode?, Option.bind_eq_bind, Option.bind_some, rounds, state, block, counter, low,
      high, final]
  rw [written, Option.some.injEq]
  -- What has been written is the fields of the encoding, one behind another.
  apply Vector.toList_inj.mp
  rw [done.toList_eq, encode]
  simp only [Vector.toList_append, State.encode, Words.toList_toBytes, List.nil_append]
  rfl

/-- A compression misses nothing, and neither does writing its state. -/
theorem compressWith?_eq_compressWith (machine : Machine) (engine : Engine) :
    params.compressWith? machine engine = some (params.compressWith machine engine) := by
  -- The engine finds all its words, and the state fits into its bytes.
  rw [compressWith?, Engine.compress?_eq_compress, compressWith]
  exact State.encode?_eq_encode _

end Params

/-- Decoding a byte string never reads past its end. -/
theorem Payload.decodeBytes?_eq_decodeBytes (bytes : Bytes) (policy : FlagPolicy) :
    decodeBytes? bytes policy = some (decodeBytes bytes policy) := by
  rw [decodeBytes?, decodeBytes]
  -- Without the right length there is no field to be read.
  cases Bytes.toVector? 213 bytes with
  | none => rfl
  | some payload => exact decode?_eq_decode payload policy

/-- A call never reads past the end of its payload, whatever that is. -/
theorem Call.run?_eq_run (machine : Machine) (policy : FlagPolicy) (bytes : Bytes)
    (gasLimit : UInt64) :
    run? machine policy bytes gasLimit = some (run machine policy bytes gasLimit) := by
  -- The length, the gas and the flag are tested in the order in which the call tests them.
  rw [run?, run]
  cases Bytes.toVector? 213 bytes with
  | none => rfl
  | some payload =>
    dsimp only
    rw [Payload.rounds?_eq_rounds]
    simp only [Option.bind_eq_bind, Option.bind_some, Payload.decode?_eq_decode]
    by_cases dear : gasLimit < gasOfRounds (Payload.rounds payload)
    · simp only [if_pos dear, Option.pure_def]
    · simp only [if_neg dear]
      cases Payload.decode payload policy with
      | error error => simp only [Payload.getElem?_flag, Option.bind_some, Option.pure_def]
      | ok params =>
        simp only [Params.compressWith?_eq_compressWith, Option.bind_some, Option.pure_def,
          Params.compress]

end Blake2F
