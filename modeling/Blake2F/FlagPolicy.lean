/-! Why a call is refused, and the two ways of reading the byte that marks the final block. -/

namespace Blake2F

/-- Why a call is refused. -/
inductive CallError where
  /-- The rounds cost more than the gas limit. -/
  | outOfGas
  /-- The payload does not have its one length. -/
  | wrongLength
  /-- The byte that marks the final block is neither zero nor one. -/
  | wrongFlag
  deriving DecidableEq, Repr

namespace CallError

/-- The wording of each refusal. -/
def message : CallError → String
  | outOfGas => "out of gas"
  | wrongLength => "wrong input length for blake2"
  | wrongFlag => "wrong final indicator flag for blake2"

/-- Whether more gas would have let the call go on. -/
def isOutOfGas : CallError → Bool
  | outOfGas => true
  | _ => false

end CallError

/-- What a byte other than zero and one says about the final block. -/
inductive FlagPolicy where
  /-- Every byte but zero marks the final block. -/
  | lenient
  /-- Bytes other than zero and one are refused. -/
  | strict
  deriving DecidableEq, Repr

namespace FlagPolicy

/-- Callers that do not choose are lenient. -/
instance : Inhabited FlagPolicy := ⟨lenient⟩

/-- The name that a policy is logged by. -/
def name : FlagPolicy → String
  | lenient => "Lenient"
  | strict => "Strict"

/-- Whether a byte marks the final block. -/
def read (policy : FlagPolicy) (byte : UInt8) : Except CallError Bool :=
  -- Zero and one mean the same under both policies.
  if byte = 0 then .ok false
  else if byte = 1 ∨ policy = lenient then .ok true
  else .error .wrongFlag

/-- What the strict policy refuses, and the lenient one never does. -/
def Refuses (policy : FlagPolicy) (byte : UInt8) : Prop :=
  -- The two bytes that the strict policy takes say the same under both.
  policy = strict ∧ byte ≠ 0 ∧ byte ≠ 1

/-- Whether a policy refuses a byte can be computed. -/
instance (policy : FlagPolicy) (byte : UInt8) : Decidable (policy.Refuses byte) :=
  inferInstanceAs (Decidable (_ ∧ _))

/-- A byte that is not refused marks the final block unless it is zero. -/
theorem read_eq (policy : FlagPolicy) (byte : UInt8) :
    policy.read byte = if policy.Refuses byte then .error .wrongFlag else .ok (byte != 0) := by
  -- Zero and one are read before the policy has a say.
  by_cases zero : byte = 0
  · simp [read, Refuses, zero]
  · by_cases one : byte = 1
    · simp [read, Refuses, one]
    · cases policy with
      | lenient => simp [read, Refuses, zero]
      | strict => simp [read, Refuses, zero, one]

/-- A policy refuses a byte only if it is strict and the byte is neither zero nor one. -/
theorem read_eq_error_iff (policy : FlagPolicy) (byte : UInt8) (error : CallError) :
    policy.read byte = .error error ↔
      error = .wrongFlag ∧ policy = strict ∧ byte ≠ 0 ∧ byte ≠ 1 := by
  -- The two tests of the byte come before the policy has a say.
  cases policy <;> by_cases zero : byte = 0 <;> by_cases one : byte = 1 <;>
    simp [read, zero, one, eq_comm]

end FlagPolicy

end Blake2F
