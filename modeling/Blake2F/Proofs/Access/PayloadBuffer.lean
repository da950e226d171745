import Mathlib.Data.List.GetD
import Blake2F.PayloadBuffer.History
import Blake2F.Proofs.Access.Payload

/-! Payload buffers that carry no bound on their count: through any history, the count alone keeps every access
within the payload. -/

namespace Blake2F

open PayloadBuffer (Step Answer)

/-- A payload buffer that may claim any number of bytes to have arrived. -/
structure LooseBuffer where
  /-- The payload as far as it has arrived. -/
  bytes : Payload
  /-- How many bytes have arrived. -/
  filled : Nat
  /-- How the flag will be read. -/
  policy : FlagPolicy
  /-- The engine that will compress. -/
  engine : Engine
  deriving DecidableEq, Repr

/-- The buffer without the proof that its count is within bounds. -/
def PayloadBuffer.loose (buffer : PayloadBuffer) : LooseBuffer :=
  ⟨buffer.bytes, buffer.filled, buffer.policy, buffer.engine⟩

namespace LooseBuffer

/-- Nothing has arrived. -/
def empty (machine : Machine) (policy : FlagPolicy) : LooseBuffer :=
  ⟨Vector.replicate 213 0, 0, policy, Engine.detect machine⟩

/-- How many bytes are still to come, unless more have arrived than there is room for. -/
def remaining? (buffer : LooseBuffer) : Option Nat :=
  if buffer.filled ≤ 213 then some (213 - buffer.filled) else none

/-- Takes a piece in over the range behind what has arrived, or refuses it whole if it is too long. -/
def append? (buffer : LooseBuffer) (data : Bytes) :
    Option (Except CallError Unit × LooseBuffer) := do
  let remaining ← buffer.remaining?
  if remaining < data.length then
    return (.error .wrongLength, buffer)
  -- Where the range ends is computed from the count, which nothing but the operations themselves keeps in bounds.
  let filled := buffer.filled + data.length
  let bytes ← Bytes.copyInto? buffer.bytes buffer.filled filled data
  return (.ok (), { buffer with bytes, filled })

/-- Drops what has arrived. -/
def clear (buffer : LooseBuffer) : LooseBuffer :=
  { buffer with bytes := Vector.replicate 213 0, filled := 0 }

/-- Compresses a complete payload and drops it, also if its flag is refused; an incomplete one stays. -/
def finish? (machine : Machine) (buffer : LooseBuffer) :
    Option (Except CallError (Vector UInt8 64) × LooseBuffer) := do
  let remaining ← buffer.remaining?
  if remaining ≠ 0 then
    return (.error .wrongLength, buffer)
  match ← Payload.decode? buffer.bytes buffer.policy with
  | .error error => return (.error error, buffer.clear)
  | .ok params => return (.ok (← params.compressWith? machine buffer.engine), buffer.clear)

/-- A buffer in use, and the copies kept of it. -/
structure Desk where
  /-- The buffer in use. -/
  current : LooseBuffer
  /-- The copies, the one kept last first. -/
  kept : List LooseBuffer
  deriving DecidableEq, Repr

namespace Desk

/-- The desk of a fresh buffer, of which a copy is kept from the start. -/
def fresh (buffer : LooseBuffer) : Desk := ⟨buffer, [buffer]⟩

/-- What one operation gives back and the desk after it. -/
def step? (machine : Machine) (desk : Desk) : Step → Option (Answer × Desk)
  | .append data => do
    match ← desk.current.append? data with
    | (.ok _, buffer) => return (.done, { desk with current := buffer })
    | (.error error, buffer) => return (.refused error, { desk with current := buffer })
  | .finish => do
    match ← desk.current.finish? machine with
    | (.ok bytes, buffer) => return (.output bytes, { desk with current := buffer })
    | (.error error, buffer) => return (.refused error, { desk with current := buffer })
  | .clear => some (.done, { desk with current := desk.current.clear })
  | .withEngine engine => some (.done, { desk with current := { desk.current with engine } })
  | .keep => some (.done, { desk with kept := desk.current :: desk.kept })
  | .restore age => some (.done, { desk with current := desk.kept.getD age desk.current })

/-- What each operation of a history gives back, with the desk after it; one failure spoils the whole history. -/
def history? (machine : Machine) (desk : Desk) : List Step → Option (List (Answer × Desk))
  | [] => some []
  | first :: rest => do
    let reached ← desk.step? machine first
    let others ← history? machine reached.2 rest
    return reached :: others

end Desk

end LooseBuffer

namespace PayloadBuffer

variable (buffer : PayloadBuffer)

/-- What is missing is counted without going below zero. -/
theorem remaining?_loose : buffer.loose.remaining? = some buffer.remaining := by
  -- No more bytes have arrived than a payload has.
  rw [LooseBuffer.remaining?, loose, if_pos buffer.within, remaining]

/-- A piece that is no longer than what is missing ends within the payload. -/
theorem filled_add_le {length : Nat} (fits : length ≤ 213 - buffer.filled) :
    buffer.filled + length ≤ 213 := by
  -- What has arrived and what is missing make up a payload.
  have within := buffer.within
  omega

/-- The range behind what has arrived is there for every piece that still fits. -/
theorem exists_slice?_loose {length : Nat} (fits : length ≤ 213 - buffer.loose.filled) :
    ∃ part, Bytes.slice? buffer.loose.bytes buffer.loose.filled (buffer.loose.filled + length) =
      some part :=
  -- It is the field that the piece will take up.
  ⟨_, Bytes.slice?_eq_field buffer.bytes buffer.filled length (buffer.filled_add_le fits)⟩

/-- A piece that fits is copied over that range, and any other is refused before it is copied. -/
theorem append?_loose (data : Bytes) :
    buffer.loose.append? data =
      some ((buffer.append data).1, (buffer.append data).2.loose) := by
  -- Whether the piece fits is tested by what is missing.
  rw [LooseBuffer.append?, remaining?_loose, append]
  simp only [Option.bind_eq_bind, Option.bind_some]
  by_cases fits : data.length ≤ 213 - buffer.filled
  · have taken : ¬ buffer.remaining < data.length := Nat.not_lt.mpr fits
    have copied := Bytes.copyInto?_eq_overwrite buffer.bytes buffer.filled data
      (buffer.filled_add_le fits)
    simp only [dif_pos fits, if_neg taken, loose, copied, Option.bind_some, Option.pure_def]
  · have refused : buffer.remaining < data.length := Nat.lt_of_not_le fits
    simp only [dif_neg fits, if_pos refused, Option.pure_def]

/-- A complete payload is read in full, and an incomplete one not at all. -/
theorem finish?_loose (machine : Machine) :
    buffer.loose.finish? machine =
      some ((buffer.finish machine).1, (buffer.finish machine).2.loose) := by
  -- Nothing is missing, or the buffer stays as it is.
  rw [LooseBuffer.finish?, remaining?_loose, finish]
  simp only [Option.bind_eq_bind, Option.bind_some]
  by_cases complete : buffer.remaining = 0
  · rw [if_pos complete, if_neg (not_not_intro complete)]
    simp only [loose, Payload.decode?_eq_decode, Option.bind_some]
    cases Payload.decode buffer.bytes buffer.policy with
    | error error => rfl
    | ok params =>
      simp only [Params.compressWith?_eq_compressWith, Option.bind_some]
      rfl
  · rw [if_neg complete, if_pos complete]
    rfl

namespace Desk

/-- The desk without the proofs that its buffers count within bounds. -/
def loose (desk : Desk) : LooseBuffer.Desk := ⟨desk.current.loose, desk.kept.map PayloadBuffer.loose⟩

/-- A fresh desk counts no bytes, with and without the bound. -/
theorem loose_fresh (machine : Machine) (policy : FlagPolicy) :
    (fresh (PayloadBuffer.empty machine policy)).loose =
      LooseBuffer.Desk.fresh (LooseBuffer.empty machine policy) := rfl

/-- No operation fails on a desk whose buffers count within bounds, and it leaves another one. -/
theorem step?_loose (machine : Machine) (desk : Desk) (operation : Step) :
    desk.loose.step? machine operation =
      some ((desk.step machine operation).1, (desk.step machine operation).2.loose) := by
  -- Only taking a piece in and finishing make any access.
  cases operation with
  | append data =>
    simp only [LooseBuffer.Desk.step?, step, loose, append?_loose, Option.bind_eq_bind,
      Option.bind_some]
    -- The answer says the same of both buffers, whether the piece is taken or refused.
    rcases desk.current.append data with ⟨_ | _, after⟩
    · rfl
    · rfl
  | finish =>
    simp only [LooseBuffer.Desk.step?, step, loose, finish?_loose, Option.bind_eq_bind,
      Option.bind_some]
    rcases desk.current.finish machine with ⟨_ | _, after⟩
    · rfl
    · rfl
  | clear => rfl
  | withEngine engine => rfl
  | keep => rfl
  | restore age =>
    have same := List.getD_map (l := desk.kept) (n := age) (d := desk.current) PayloadBuffer.loose
    simp only [LooseBuffer.Desk.step?, step, loose, same]

/-- No operation of any history fails, since each is left a desk whose buffers count within bounds. -/
theorem history?_loose (machine : Machine) (desk : Desk) (steps : List Step) :
    desk.loose.history? machine steps =
      some ((desk.history machine steps).map fun reached => (reached.1, reached.2.loose)) := by
  -- The rest of the history starts from the desk that the first operation leaves on both sides.
  induction steps generalizing desk with
  | nil => rfl
  | cons first rest ih =>
    rw [LooseBuffer.Desk.history?, step?_loose, history]
    simp only [Option.bind_eq_bind, Option.bind_some, ih]
    rfl

end Desk

end PayloadBuffer

end Blake2F
