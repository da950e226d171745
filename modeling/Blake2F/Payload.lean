import Blake2F.Engine
import Blake2F.FlagPolicy

/-! The payload of a call: 213 bytes that hold the parameters of one compression in fixed fields. -/

namespace Blake2F

/-- Rounds in four big-endian bytes, state in 64, block in 128, both counter words in eight each, flag in one. -/
abbrev Payload := Vector UInt8 213

/-- The 64 bytes of a chaining state, its words one after another in little-endian order. -/
def State.encode (state : State) : Vector UInt8 64 := Words.toBytes state

/-- The chaining state laid out in 64 bytes. -/
def State.decode (bytes : Vector UInt8 64) : State := Words.ofBytes bytes

namespace Payload

/-- The number of rounds that a payload asks for. -/
def rounds (payload : Payload) : UInt32 :=
  UInt32.ofNat (Bytes.bigEndian (Bytes.field payload 0 4).toList)

/-- The byte that marks the final block. -/
def flag (payload : Payload) : UInt8 := payload[212]

/-- The parameters that a payload holds; only its flag can be refused. -/
def decode (payload : Payload) (policy : FlagPolicy) : Except CallError Params := do
  -- The flag comes first, since nothing else can be refused.
  let final ← policy.read payload.flag
  return {
    rounds := payload.rounds
    state := State.decode (Bytes.field payload 4 64)
    block := Bytes.field payload 68 128
    counter := ⟨Word.ofBytes (Bytes.field payload 196 8), Word.ofBytes (Bytes.field payload 204 8)⟩
    final }

/-- Checks the length of a byte string and decodes it. -/
def decodeBytes (bytes : Bytes) (policy : FlagPolicy) : Except CallError Params :=
  -- The length alone decides whether there are fields to read.
  match Bytes.toVector? 213 bytes with
  | none => .error .wrongLength
  | some payload => decode payload policy

end Payload

/-- The gas that one round costs. -/
def gasPerRound : UInt64 := 1

/-- The gas that a number of rounds costs. -/
def gasOfRounds (rounds : UInt32) : UInt64 := rounds.toUInt64 * gasPerRound

/-- A round costs one unit of gas, so even the largest number of rounds has its exact price. -/
theorem gasOfRounds_toNat (rounds : UInt32) : (gasOfRounds rounds).toNat = rounds.toNat := by
  -- Widening a round count loses nothing.
  rw [gasOfRounds, gasPerRound, UInt64.mul_one, UInt32.toNat_toUInt64]

namespace Params

/-- The four bytes of the round count, most significant first. -/
def roundBytes (rounds : UInt32) : Vector UInt8 4 :=
  ⟨(Bytes.bigEndianDigits 4 rounds.toNat).toArray, by simp⟩

/-- The payload that holds the parameters, with a flag of zero or one. -/
def encode (params : Params) : Payload :=
  -- Only the round count is written most significant byte first.
  roundBytes params.rounds ++ params.state.encode ++ params.block ++
    Word.toBytes params.counter.low ++ Word.toBytes params.counter.high ++
    #v[if params.final then (1 : UInt8) else 0]

/-- The gas that a compression costs. -/
def gas (params : Params) : UInt64 := gasOfRounds params.rounds

/-- The bytes of the chaining state after a compression by an engine. -/
def compressWith (machine : Machine) (engine : Engine) (params : Params) : Vector UInt8 64 :=
  (engine.compress machine params).encode

/-- The bytes of the chaining state after a compression by the fastest engine of the machine. -/
def compress (machine : Machine) (params : Params) : Vector UInt8 64 :=
  params.compressWith machine (Engine.detect machine)

end Params

end Blake2F
