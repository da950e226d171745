import Blake2F.Log
import Blake2F.Payload

/-! The call: it checks the length of its payload, the gas and the flag, in that order, and compresses; and the
address at which it is registered. -/

namespace Blake2F

/-- What a call that goes well gives back. -/
structure Output where
  /-- The gas that the rounds cost. -/
  gasUsed : UInt64
  /-- The bytes of the new chaining state. -/
  bytes : Vector UInt8 64
  deriving DecidableEq, Repr

/-- A value, and the events logged on the way to it. -/
structure Traced (α : Type) where
  /-- The events in the order in which they were logged. -/
  events : List Event
  /-- What came of it. -/
  value : α
  deriving DecidableEq, Repr

namespace Call

/-- Runs a payload under a gas limit. -/
def run (machine : Machine) (policy : FlagPolicy) (bytes : Bytes) (gasLimit : UInt64) :
    Traced (Except CallError Output) :=
  -- A payload of the wrong length has no field to charge gas for.
  match Bytes.toVector? 213 bytes with
  | none => ⟨[.wrongLength bytes.length], .error .wrongLength⟩
  | some payload =>
    let rounds := Payload.rounds payload
    let gasUsed := gasOfRounds rounds
    -- Gas goes before the flag, so a bad flag costs nothing to a caller who cannot pay.
    if gasLimit < gasUsed then ⟨[.outOfGas rounds gasLimit], .error .outOfGas⟩
    else match Payload.decode payload policy with
      | .error error => ⟨[.wrongFlag (Payload.flag payload)], .error error⟩
      | .ok params =>
        ⟨[.compressed rounds gasUsed], .ok ⟨gasUsed, params.compress machine⟩⟩

/-- Runs a payload whose flag may be any byte. -/
def lenient (machine : Machine) : Bytes → UInt64 → Traced (Except CallError Output) :=
  run machine .lenient

/-- Runs a payload whose flag must be zero or one. -/
def strict (machine : Machine) : Bytes → UInt64 → Traced (Except CallError Output) :=
  run machine .strict

end Call

/-- An address of twenty bytes. -/
abbrev Address := Vector UInt8 20

namespace Address

/-- The address that ends in the eight bytes of a number, most significant first, after twelve zeros. -/
def ofWord (word : Word) : Address :=
  -- A word's own bytes come least significant first.
  Vector.replicate 12 (0 : UInt8) ++ (Word.toBytes word).reverse

end Address

/-- A call and the address that it answers at. -/
structure Registration where
  /-- The address that the call answers at. -/
  address : Address
  /-- What runs when the address is called. -/
  call : Bytes → UInt64 → Traced (Except CallError Output)

namespace Registration

/-- The address of the compression function. -/
def blake2fAddress : Address := Address.ofWord 9

/-- The call that takes any flag, at its address. -/
def lenient (machine : Machine) : Registration := ⟨blake2fAddress, Call.lenient machine⟩

/-- The call that takes a flag of zero or one only, at the same address. -/
def strict (machine : Machine) : Registration := ⟨blake2fAddress, Call.strict machine⟩

end Registration

end Blake2F
