import Blake2F.Payload

/-! A payload that arrives in pieces of any size, and is compressed once it is complete. -/

namespace Blake2F

/-- The bytes that have arrived, followed by zeros up to the length of a payload. -/
structure PayloadBuffer where
  /-- The payload as far as it has arrived. -/
  bytes : Payload
  /-- How many bytes have arrived. -/
  filled : Nat
  /-- No more bytes arrive than a payload has. -/
  within : filled ≤ 213
  /-- How the flag will be read. -/
  policy : FlagPolicy
  /-- The engine that will compress. -/
  engine : Engine
  deriving DecidableEq, Repr

namespace PayloadBuffer

/-- Nothing has arrived. -/
def empty (machine : Machine) (policy : FlagPolicy) : PayloadBuffer where
  bytes := Vector.replicate 213 0
  filled := 0
  within := by omega
  policy := policy
  engine := Engine.detect machine

/-- Nothing has arrived, and the caller has not chosen a policy. -/
def new (machine : Machine) : PayloadBuffer := empty machine default

/-- The same buffer with another engine. -/
def withEngine (buffer : PayloadBuffer) (engine : Engine) : PayloadBuffer := { buffer with engine }

/-- How many bytes have arrived. -/
def length (buffer : PayloadBuffer) : Nat := buffer.filled

/-- Whether nothing has arrived. -/
def isEmpty (buffer : PayloadBuffer) : Bool := buffer.filled == 0

/-- How many bytes are still to come. -/
def remaining (buffer : PayloadBuffer) : Nat := 213 - buffer.filled

/-- What has arrived and what is still to come make up a payload. -/
theorem length_add_remaining (buffer : PayloadBuffer) : buffer.length + buffer.remaining = 213 := by
  -- No more bytes arrive than a payload has.
  have := buffer.within
  simp only [length, remaining]
  omega

/-- Takes a piece in, or refuses it whole if it does not fit. -/
def append (buffer : PayloadBuffer) (data : Bytes) : Except CallError Unit × PayloadBuffer :=
  -- A piece that fits leaves zeros behind it, as the buffer was zero there before.
  if fits : data.length ≤ 213 - buffer.filled then
    have within : buffer.filled + data.length ≤ 213 := by
      have := buffer.within
      omega
    (.ok (), { buffer with
      bytes := Bytes.overwrite buffer.bytes buffer.filled data within
      filled := buffer.filled + data.length
      within })
  else (.error .wrongLength, buffer)

/-- Drops what has arrived. -/
def clear (buffer : PayloadBuffer) : PayloadBuffer :=
  -- Old bytes must not show through in the next payload.
  { buffer with bytes := Vector.replicate 213 0, filled := 0, within := by omega }

/-- Compresses a complete payload and drops it, also if its flag is refused; an incomplete one stays. -/
def finish (machine : Machine) (buffer : PayloadBuffer) :
    Except CallError (Vector UInt8 64) × PayloadBuffer :=
  if buffer.remaining = 0 then
    -- What has arrived is used up whether or not its flag is refused.
    let params := Payload.decode buffer.bytes buffer.policy
    (params.map (·.compressWith machine buffer.engine), buffer.clear)
  else (.error .wrongLength, buffer)

end PayloadBuffer

end Blake2F
