import Mathlib.Data.List.Forall2
import Mathlib.Data.List.GetD
import Blake2F.Proofs.Call
import Blake2F.Proofs.Intake

/-! Payload buffers show an intake at every step of every history, and never the engine. -/

namespace Blake2F

namespace PayloadBuffer

/-- The buffer holds the intake, followed by zeros, and all that can be asked of it follows. -/
structure Shows (buffer : PayloadBuffer) (intake : Intake) : Prop where
  /-- As many bytes are counted as have arrived. -/
  filled : buffer.filled = intake.arrived.length
  /-- The front of the buffer is what has arrived. -/
  front : buffer.bytes.toList.take buffer.filled = intake.arrived
  /-- Nothing is left behind it. -/
  rest : ∀ byte ∈ buffer.bytes.toList.drop buffer.filled, byte = 0
  /-- The policies are the same. -/
  policy : buffer.policy = intake.policy
  /-- What is still to come completes a payload. -/
  balance : buffer.length + buffer.remaining = 213
  /-- The buffer is empty as long as nothing has arrived. -/
  isEmpty : buffer.isEmpty = true ↔ intake.arrived = []

/-- The bytes of a buffer that shows an intake: what has arrived, then zeros. -/
theorem shows_iff (buffer : PayloadBuffer) (intake : Intake) :
    buffer.Shows intake ↔
      buffer.bytes.toList = intake.arrived ++ List.replicate (213 - intake.arrived.length) 0 ∧
        buffer.filled = intake.arrived.length ∧ buffer.policy = intake.policy := by
  -- The bytes are cut where the count says, and both parts are known.
  constructor
  · intro shows
    refine ⟨?_, shows.filled, shows.policy⟩
    have zeros : buffer.bytes.toList.drop buffer.filled =
        List.replicate (213 - intake.arrived.length) 0 := by
      rw [List.eq_replicate_iff, List.length_drop, Vector.length_toList, shows.filled]
      refine ⟨rfl, ?_⟩
      rw [← shows.filled]
      exact shows.rest
    rw [← List.take_append_drop buffer.filled buffer.bytes.toList, shows.front, zeros]
  · rintro ⟨bytes, filled, policy⟩
    refine ⟨filled, ?_, ?_, policy, buffer.length_add_remaining, ?_⟩
    · rw [bytes, filled, List.take_left]
    · rw [bytes, filled, List.drop_left]
      intro byte member
      exact List.eq_of_mem_replicate member
    · rw [PayloadBuffer.isEmpty, beq_iff_eq, filled, List.length_eq_zero_iff]

variable {buffer : PayloadBuffer} {intake : Intake}

/-- The buffer and the intake miss the same number of bytes. -/
theorem Shows.remaining_eq (shows : buffer.Shows intake) :
    buffer.remaining = 213 - intake.arrived.length := by
  -- Both count what has arrived.
  rw [remaining, shows.filled]

/-- A fresh buffer shows a fresh intake. -/
theorem shows_empty (machine : Machine) (policy : FlagPolicy) :
    (empty machine policy).Shows (Intake.empty policy) := by
  -- All bytes are zero, and none has arrived.
  rw [shows_iff]
  exact ⟨by simp [empty, Intake.empty], rfl, rfl⟩

/-- A buffer shows a fresh intake once it is cleared. -/
theorem Shows.clear (shows : buffer.Shows intake) :
    buffer.clear.Shows (Intake.empty intake.policy) := by
  -- Clearing leaves zeros, no count and the same policy.
  rw [shows_iff]
  exact ⟨by simp [PayloadBuffer.clear, Intake.empty], rfl, shows.policy⟩

/-- A buffer shows the same intake with any engine. -/
theorem Shows.withEngine (shows : buffer.Shows intake) (engine : Engine) :
    (buffer.withEngine engine).Shows intake := by
  -- Bytes, count and policy stay, and they are all that matters.
  have held := (shows_iff buffer intake).mp shows
  exact (shows_iff (buffer.withEngine engine) intake).mpr held

/-- A piece that fits is taken in by both. -/
theorem Shows.append_of_fits (shows : buffer.Shows intake) {data : Bytes}
    (fits : intake.arrived.length + data.length ≤ 213) :
    ∃ after shown, buffer.append data = (.ok (), after) ∧ intake.append data = (.done, shown) ∧
      after.Shows shown := by
  -- The room that is left is the same for both.
  obtain ⟨bytes, filled, policy⟩ := (shows_iff buffer intake).mp shows
  have room : data.length ≤ 213 - buffer.filled := by omega
  rw [PayloadBuffer.append, Intake.append, dif_pos room, dif_pos fits]
  refine ⟨_, _, rfl, rfl, ?_⟩
  rw [shows_iff]
  refine ⟨?_, ?_, policy⟩
  · -- The piece takes the place of as many of the zeros.
    have zeros : 213 - intake.arrived.length - data.length =
        213 - (intake.arrived ++ data).length := by
      rw [List.length_append, Nat.sub_sub]
    simp only [Bytes.toList_overwrite, bytes, filled, List.take_left]
    rw [← List.drop_drop, List.drop_left, List.drop_replicate, zeros]
  · simp only [filled, List.length_append]

/-- A piece that does not fit is refused by both, which stay as they are. -/
theorem Shows.append_of_not_fits (shows : buffer.Shows intake) {data : Bytes}
    (surplus : ¬ intake.arrived.length + data.length ≤ 213) :
    buffer.append data = (.error .wrongLength, buffer) ∧
      intake.append data = (.refused .wrongLength, intake) := by
  -- The buffer tests the room that is left, and the intake the sum.
  have full : ¬ data.length ≤ 213 - buffer.filled := by
    have filled := shows.filled
    have within := buffer.within
    omega
  rw [PayloadBuffer.append, Intake.append, dif_neg full, dif_neg surplus]
  exact ⟨rfl, rfl⟩

/-- An incomplete payload is refused by both, which stay as they are. -/
theorem Shows.finish_of_incomplete (machine : Machine) (shows : buffer.Shows intake)
    (short : intake.arrived.length < 213) :
    buffer.finish machine = (.error .wrongLength, buffer) ∧
      intake.finish = (.refused .wrongLength, intake) := by
  -- Something is missing from both.
  have missing : buffer.remaining ≠ 0 := by
    rw [shows.remaining_eq]
    omega
  rw [PayloadBuffer.finish, Intake.finish, if_neg missing, if_pos short]
  exact ⟨rfl, rfl⟩

/-- No zeros are left behind the bytes of a complete payload. -/
theorem Shows.toList_of_complete (shows : buffer.Shows intake)
    (complete : ¬ intake.arrived.length < 213) : buffer.bytes.toList = intake.arrived := by
  -- There is no room for any.
  obtain ⟨bytes, -, -⟩ := (shows_iff buffer intake).mp shows
  have full : 213 - intake.arrived.length = 0 := by omega
  rw [bytes, full, List.replicate_zero, List.append_nil]

/-- A complete payload is what has arrived, and is decoded from it. -/
theorem Shows.decode_of_complete (shows : buffer.Shows intake)
    (complete : ¬ intake.arrived.length < 213) :
    Payload.decode buffer.bytes buffer.policy =
      if intake.policy.Refuses (Layout.flag intake.arrived) then .error .wrongFlag
      else .ok (Layout.params intake.arrived) := by
  -- Decoding goes by the bytes and the policy, which the two share.
  rw [Payload.decode_eq, shows.toList_of_complete complete, shows.policy]

/-- A complete payload is settled alike by both, which drop it whatever comes of it. -/
theorem Shows.finish_of_complete (machine : Machine) (shows : buffer.Shows intake)
    (complete : ¬ intake.arrived.length < 213) :
    (buffer.finish machine = (.error .wrongFlag, buffer.clear) ∧
        intake.finish = (.refused .wrongFlag, Intake.empty intake.policy)) ∨
      ∃ output, buffer.finish machine = (.ok output, buffer.clear) ∧
        intake.finish = (.output output, Intake.empty intake.policy) := by
  have nothing : buffer.remaining = 0 := by
    rw [shows.remaining_eq]
    omega
  rw [PayloadBuffer.finish, Intake.finish, if_pos nothing, if_neg complete, Intake.verdict,
    shows.decode_of_complete complete]
  -- The flag alone decides between the two.
  by_cases refused : intake.policy.Refuses (Layout.flag intake.arrived)
  · rw [if_pos refused, if_pos refused]
    exact .inl ⟨rfl, rfl⟩
  · rw [if_neg refused, if_neg refused]
    refine .inr ⟨(Rows.compress (Layout.params intake.arrived)).encode, ?_, rfl⟩
    simp only [Except.map, Params.compressWith_eq]

namespace Desk

/-- A desk shows a desk of intakes if the buffer in use and all copies show their own. -/
structure Shows (desk : Desk) (shown : Intake.Desk) : Prop where
  /-- The buffer in use shows the intake in use. -/
  current : desk.current.Shows shown.current
  /-- The copies show as many intakes, one by one. -/
  kept : List.Forall₂ PayloadBuffer.Shows desk.kept shown.kept

variable {desk : Desk} {shown : Intake.Desk}

/-- A fresh desk shows a fresh desk of intakes. -/
theorem shows_fresh (machine : Machine) (policy : FlagPolicy) :
    (fresh (empty machine policy)).Shows (Intake.Desk.fresh (Intake.empty policy)) := by
  -- The only copy is one of the fresh buffer.
  have start := shows_empty machine policy
  exact ⟨start, .cons start .nil⟩

/-- Going back to a copy shows the intake gone back to. -/
theorem Shows.restore (shows : desk.Shows shown) (age : Nat) :
    (desk.kept.getD age desk.current).Shows (shown.kept.getD age shown.current) := by
  have same := shows.kept.length_eq
  by_cases found : age < desk.kept.length
  · have there : age < shown.kept.length := by omega
    rw [List.getD_eq_getElem _ _ found, List.getD_eq_getElem _ _ there]
    exact shows.kept.get found there
  · -- On neither side there is a copy of that age.
    have past : desk.kept.length ≤ age := Nat.not_lt.mp found
    rw [List.getD_eq_default _ _ past, List.getD_eq_default _ _ (same ▸ past)]
    exact shows.current

/-- An operation gives the same answer on both desks, and leaves the one showing the other. -/
theorem Shows.step (machine : Machine) (shows : desk.Shows shown) (operation : Step) :
    (desk.step machine operation).1 = (shown.step operation).1 ∧
      (desk.step machine operation).2.Shows (shown.step operation).2 := by
  -- Each operation is one of those shown above.
  cases operation with
  | append data =>
    by_cases fits : shown.current.arrived.length + data.length ≤ 213
    · obtain ⟨after, intake, taken, arrived, same⟩ := shows.current.append_of_fits fits
      rw [Desk.step, Intake.Desk.step, taken, arrived]
      exact ⟨rfl, same, shows.kept⟩
    · obtain ⟨refused, same⟩ := shows.current.append_of_not_fits fits
      rw [Desk.step, Intake.Desk.step, refused, same]
      exact ⟨rfl, shows.current, shows.kept⟩
  | finish =>
    by_cases short : shown.current.arrived.length < 213
    · obtain ⟨refused, same⟩ := shows.current.finish_of_incomplete machine short
      rw [Desk.step, Intake.Desk.step, refused, same]
      exact ⟨rfl, shows.current, shows.kept⟩
    · -- What has arrived is dropped with a refused flag as well as with an output.
      rcases shows.current.finish_of_complete machine short with
        ⟨refused, same⟩ | ⟨output, settled, same⟩
      · rw [Desk.step, Intake.Desk.step, refused, same]
        exact ⟨rfl, shows.current.clear, shows.kept⟩
      · rw [Desk.step, Intake.Desk.step, settled, same]
        exact ⟨rfl, shows.current.clear, shows.kept⟩
  | clear => exact ⟨rfl, shows.current.clear, shows.kept⟩
  | withEngine engine => exact ⟨rfl, shows.current.withEngine engine, shows.kept⟩
  | keep => exact ⟨rfl, shows.current, .cons shows.current shows.kept⟩
  | restore age => exact ⟨rfl, shows.restore age, shows.kept⟩

/-- Through any history, both desks give the same answers, and the one keeps showing the other. -/
theorem Shows.history (machine : Machine) (shows : desk.Shows shown) (steps : List Step) :
    List.Forall₂ (fun reached expected => reached.1 = expected.1 ∧ reached.2.Shows expected.2)
      (desk.history machine steps) (shown.history steps) := by
  -- Each operation starts from desks that the one before has left showing each other.
  induction steps generalizing desk shown with
  | nil => exact .nil
  | cons first rest ih =>
    have reached := shows.step machine first
    exact .cons reached (ih reached.2)

/-- What a caller sees of an operation: its answer, and what the buffer tells about itself after it. -/
def seen (reached : Answer × Desk) : Answer × Nat × Nat × Bool :=
  let buffer := reached.2.current
  (reached.1, buffer.length, buffer.remaining, buffer.isEmpty)

/-- A caller sees of a buffer what it would see of the intake. -/
theorem Shows.seen_eq {reached : Answer × Desk} {expected : Answer × Intake.Desk}
    (answer : reached.1 = expected.1) (shows : reached.2.Shows expected.2) :
    seen reached = Intake.Desk.seen expected := by
  -- What a buffer tells of itself is its count, in three forms.
  have length : reached.2.current.length = expected.2.current.arrived.length := shows.current.filled
  have isEmpty : reached.2.current.isEmpty = expected.2.current.arrived.isEmpty := by
    rw [Bool.eq_iff_iff, shows.current.isEmpty, List.isEmpty_iff]
  simp only [seen, Intake.Desk.seen, answer, length, shows.current.remaining_eq, isEmpty]

/-- A caller sees of a history what it would see of the intakes. -/
theorem Shows.map_seen_history (machine : Machine) (shows : desk.Shows shown) (steps : List Step) :
    (desk.history machine steps).map seen = (shown.history steps).map Intake.Desk.seen := by
  -- The two histories go side by side, and look the same at each step.
  have alike := shows.history machine steps
  rw [← List.forall₂_eq_eq_eq, List.forall₂_map_left_iff, List.forall₂_map_right_iff]
  exact alike.imp fun _ _ same => Shows.seen_eq same.1 same.2

/-- Neither the machine nor the choice of an engine shows in a history. -/
theorem map_seen_history_portable (machine : Machine) (policy : FlagPolicy) (steps : List Step) :
    ((fresh (empty machine policy)).history machine steps).map seen =
      ((fresh (empty .plain policy)).history .plain (steps.map Step.portable)).map seen := by
  -- Both are what would be seen of the intakes, which know no engine.
  rw [(shows_fresh machine policy).map_seen_history, (shows_fresh .plain policy).map_seen_history,
    Intake.Desk.history_portable]

/-- An operation refused for a length leaves everything as it was. -/
theorem step_eq_of_wrongLength (machine : Machine) (desk : Desk) (operation : Step)
    (refused : (desk.step machine operation).1 = .refused .wrongLength) :
    (desk.step machine operation).2 = desk := by
  -- Only taking a piece in and finishing are ever refused.
  cases operation with
  | append data =>
    by_cases fits : data.length ≤ 213 - desk.current.filled
    · rw [step, PayloadBuffer.append, dif_pos fits] at refused
      cases refused
    · rw [step, PayloadBuffer.append, dif_neg fits]
  | finish =>
    by_cases complete : desk.current.remaining = 0
    · -- A complete payload is refused for its flag only.
      rw [step, PayloadBuffer.finish, if_pos complete, Payload.decode_eq] at refused
      by_cases flagged : desk.current.policy.Refuses (Layout.flag desk.current.bytes.toList)
      · rw [if_pos flagged] at refused
        cases refused
      · rw [if_neg flagged] at refused
        cases refused
    · rw [step, PayloadBuffer.finish, if_neg complete]
  | clear => cases refused
  | withEngine engine => cases refused
  | keep => cases refused
  | restore age => cases refused

end Desk

end PayloadBuffer

end Blake2F
