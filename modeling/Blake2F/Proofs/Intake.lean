import Blake2F.PayloadBuffer.History
import Blake2F.Proofs.Layout

/-! What a payload buffer amounts to: the bytes that have arrived and a flag policy, and nothing else. -/

namespace Blake2F

/-- The same operation, but with the portable engine wherever one is chosen. -/
def PayloadBuffer.Step.portable : Step → Step
  | .withEngine _ => .withEngine .portable
  | operation => operation

open PayloadBuffer (Step Answer)

/-- The bytes of a payload that have arrived, and how its flag will be read. -/
structure Intake where
  /-- The bytes in the order in which they have arrived. -/
  arrived : Bytes
  /-- No more bytes arrive than a payload has. -/
  within : arrived.length ≤ 213
  /-- How the flag will be read. -/
  policy : FlagPolicy
  deriving DecidableEq, Repr

namespace Intake

/-- Nothing has arrived. -/
def empty (policy : FlagPolicy) : Intake := ⟨[], by simp, policy⟩

/-- Takes a piece in after the bytes that have arrived, or refuses it whole if it does not fit. -/
def append (intake : Intake) (data : Bytes) : Answer × Intake :=
  if fits : intake.arrived.length + data.length ≤ 213 then
    (.done, { intake with
      arrived := intake.arrived ++ data
      within := by rwa [List.length_append] })
  else (.refused .wrongLength, intake)

/-- What comes of a complete payload. -/
def verdict (intake : Intake) : Answer :=
  if intake.policy.Refuses (Layout.flag intake.arrived) then .refused .wrongFlag
  else .output (Rows.compress (Layout.params intake.arrived)).encode

/-- Settles a complete payload and drops it; an incomplete one stays. -/
def finish (intake : Intake) : Answer × Intake :=
  if intake.arrived.length < 213 then (.refused .wrongLength, intake)
  else (intake.verdict, empty intake.policy)

/-- An intake in use, and the copies kept of it. -/
structure Desk where
  /-- The intake in use. -/
  current : Intake
  /-- The copies, the one kept last first. -/
  kept : List Intake
  deriving DecidableEq, Repr

namespace Desk

/-- The desk of a fresh intake, of which a copy is kept from the start. -/
def fresh (intake : Intake) : Desk := ⟨intake, [intake]⟩

/-- What one operation gives back and the desk after it. -/
def step (desk : Desk) : Step → Answer × Desk
  | .append data =>
    let reached := desk.current.append data
    (reached.1, { desk with current := reached.2 })
  | .finish =>
    let reached := desk.current.finish
    (reached.1, { desk with current := reached.2 })
  | .clear => (.done, { desk with current := empty desk.current.policy })
  -- There is no engine here to change.
  | .withEngine _ => (.done, desk)
  | .keep => (.done, { desk with kept := desk.current :: desk.kept })
  | .restore age => (.done, { desk with current := desk.kept.getD age desk.current })

/-- What each operation of a history gives back, with the desk after it. -/
def history (desk : Desk) : List Step → List (Answer × Desk)
  | [] => []
  | first :: rest =>
    -- The rest of the history starts from the desk that the first operation leaves.
    let reached := desk.step first
    reached :: history reached.2 rest

/-- What a caller sees of an operation: its answer, how much has arrived and how much has not. -/
def seen (reached : Answer × Desk) : Answer × Nat × Nat × Bool :=
  let arrived := reached.2.current.arrived
  (reached.1, arrived.length, 213 - arrived.length, arrived.isEmpty)

/-- No intake tells one engine from another, through any history. -/
theorem history_portable (desk : Desk) (steps : List Step) :
    desk.history (steps.map Step.portable) = desk.history steps := by
  -- A choice of engine is passed over, whichever it is.
  have same (desk : Desk) (operation : Step) : desk.step operation.portable = desk.step operation := by
    cases operation with
    | withEngine engine => rfl
    | append data => rfl
    | finish => rfl
    | clear => rfl
    | keep => rfl
    | restore age => rfl
  induction steps generalizing desk with
  | nil => rfl
  | cons first rest ih => rw [List.map_cons, history, history, same, ih]

end Desk

end Intake

end Blake2F
