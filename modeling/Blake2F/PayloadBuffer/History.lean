import Blake2F.PayloadBuffer

/-! Histories of a payload buffer: its operations in any order, with copies to keep and go back to. -/

namespace Blake2F

namespace PayloadBuffer

/-- One operation of a history. -/
inductive Step where
  /-- Take a piece in. -/
  | append (data : Bytes)
  /-- Compress what has arrived. -/
  | finish
  /-- Drop what has arrived. -/
  | clear
  /-- Go on with another engine. -/
  | withEngine (engine : Engine)
  /-- Keep a copy of the buffer. -/
  | keep
  /-- Go back to a copy, counted back from the one kept last. -/
  | restore (age : Nat := 0)
  deriving DecidableEq, Repr

/-- What an operation gives back. -/
inductive Answer where
  /-- Nothing but that it went well. -/
  | done
  /-- The output of a compression. -/
  | output (bytes : Vector UInt8 64)
  /-- The reason why it was refused. -/
  | refused (error : CallError)
  deriving DecidableEq, Repr

/-- A buffer in use, and the copies kept of it. -/
structure Desk where
  /-- The buffer in use. -/
  current : PayloadBuffer
  /-- The copies, the one kept last first. -/
  kept : List PayloadBuffer
  deriving DecidableEq, Repr

namespace Desk

/-- The desk of a fresh buffer, of which a copy is kept from the start. -/
def fresh (buffer : PayloadBuffer) : Desk := ⟨buffer, [buffer]⟩

/-- What one operation gives back and the desk after it. -/
def step (machine : Machine) (desk : Desk) : Step → Answer × Desk
  | .append data =>
    match desk.current.append data with
    | (.ok _, buffer) => (.done, { desk with current := buffer })
    | (.error error, buffer) => (.refused error, { desk with current := buffer })
  | .finish =>
    match desk.current.finish machine with
    | (.ok bytes, buffer) => (.output bytes, { desk with current := buffer })
    | (.error error, buffer) => (.refused error, { desk with current := buffer })
  | .clear => (.done, { desk with current := desk.current.clear })
  | .withEngine engine => (.done, { desk with current := desk.current.withEngine engine })
  | .keep => (.done, { desk with kept := desk.current :: desk.kept })
  -- Without a copy of that age there is nothing to go back to.
  | .restore age => (.done, { desk with current := desk.kept.getD age desk.current })

/-- What each operation of a history gives back, with the desk after it. -/
def history (machine : Machine) (desk : Desk) : List Step → List (Answer × Desk)
  | [] => []
  | first :: rest =>
    -- The rest of the history starts from the desk that the first operation leaves.
    let reached := desk.step machine first
    reached :: history machine reached.2 rest

end Desk

end PayloadBuffer

end Blake2F
