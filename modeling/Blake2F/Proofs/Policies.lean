import Mathlib.Data.List.GetD
import Blake2F.Proofs.Codec
import Blake2F.Proofs.PayloadBuffer

/-! The two flag policies side by side: calls and histories of buffers tell them apart by the refusal of a
flag and by nothing else. -/

namespace Blake2F

/-- The lenient policy refuses nothing. -/
theorem FlagPolicy.not_lenient_refuses (byte : UInt8) : ¬ lenient.Refuses byte := by
  -- Only the strict policy refuses anything.
  intro refused
  obtain ⟨same, -⟩ := refused
  cases same

namespace Layout

/-- A byte string as long as a payload with its flag written as zero or one; any other as it is. -/
def canonical (bytes : Bytes) : Bytes :=
  if bytes.length = 213 then bytes.set 212 (if flag bytes = 0 then 0 else 1) else bytes

/-- The canonical form of a payload is that of its byte string. -/
theorem canonical_toList (payload : Payload) :
    canonical payload.toList = payload.canonical.toList := by
  -- The list is as long as a payload, so its last byte is written.
  rw [canonical, if_pos Vector.length_toList, flag_toList, Payload.canonical, Vector.toList_set]

end Layout

/-- The strict policy reads the canonical form of a payload as the lenient policy reads the payload. -/
theorem Payload.decode_canonical (payload : Payload) :
    decode payload.canonical .strict = decode payload .lenient := by
  -- The canonical form is an encoding, and every encoding is decoded.
  rw [decode_eq payload, if_neg (FlagPolicy.not_lenient_refuses _), ← encode_params, decode_encode]

namespace Call

/-- A lenient call does what a strict one does with the canonical form, down to the event. -/
theorem lenient_eq_strict_canonical (machine : Machine) (bytes : Bytes) (gasLimit : UInt64) :
    lenient machine bytes gasLimit = strict machine (Layout.canonical bytes) gasLimit := by
  rw [lenient, strict]
  by_cases sized : bytes.length = 213
  · obtain ⟨(payload : Payload), rfl⟩ := Bytes.exists_toList sized
    rw [Layout.canonical_toList]
    have rounds : payload.canonical.rounds = payload.rounds := by
      rw [Payload.rounds, Payload.rounds, Payload.field_canonical payload 0 4 (by decide)]
    -- Neither call gets as far as the refusal of a flag.
    have taken := FlagPolicy.not_lenient_refuses (Layout.flag payload.toList)
    simp only [run, Bytes.toVector?_toList, rounds, Payload.decode_canonical,
      Payload.decode_eq payload, if_neg taken]
  · rw [Layout.canonical, if_neg sized, run, run, Bytes.toVector?_eq_none_iff.mpr sized]

/-- A strict call does what a lenient one does, unless it comes to a flag that only the lenient one takes. -/
theorem strict_eq_lenient (machine : Machine) (bytes : Bytes) (gasLimit : UInt64) :
    strict machine bytes gasLimit =
      if bytes.length = 213 ∧ Layout.rounds bytes ≤ gasLimit.toNat ∧
          Layout.flag bytes ≠ 0 ∧ Layout.flag bytes ≠ 1 then
        ⟨[.wrongFlag (Layout.flag bytes)], .error .wrongFlag⟩
      else lenient machine bytes gasLimit := by
  -- Both calls come to the answer of their checks.
  rw [strict, lenient, run_eq_answer, run_eq_answer]
  have taken := FlagPolicy.not_lenient_refuses (Layout.flag bytes)
  split
  · next disputed =>
    obtain ⟨sized, paid, zero, one⟩ := disputed
    have refused : FlagPolicy.strict.Refuses (Layout.flag bytes) := ⟨rfl, zero, one⟩
    rw [answer, if_neg (not_not_intro sized), if_neg (Nat.not_lt.mpr paid), if_pos refused]
  · next clear =>
    -- Both calls run through the same checks, and the flag is the only one that could divide them.
    rw [answer, answer]
    by_cases sized : bytes.length = 213
    · rw [if_neg (not_not_intro sized), if_neg (not_not_intro sized)]
      by_cases dear : gasLimit.toNat < Layout.rounds bytes
      · rw [if_pos dear, if_pos dear]
      · have accepted : ¬ FlagPolicy.strict.Refuses (Layout.flag bytes) := by
          intro refuses
          obtain ⟨-, zero, one⟩ := refuses
          exact clear ⟨sized, Nat.not_lt.mp dear, zero, one⟩
        rw [if_neg dear, if_neg dear, if_neg accepted, if_neg taken]
    · rw [if_pos sized, if_pos sized]

end Call

open PayloadBuffer (Step Answer)

namespace Intake

/-- The same bytes under another policy. -/
def under (intake : Intake) (policy : FlagPolicy) : Intake := { intake with policy }

/-- A piece is taken in or refused alike under every policy. -/
theorem append_under (intake : Intake) (policy : FlagPolicy) (data : Bytes) :
    (intake.under policy).append data =
      ((intake.append data).1, (intake.append data).2.under policy) := by
  -- Whether it fits depends on what has arrived alone.
  by_cases fits : intake.arrived.length + data.length ≤ 213
  · have alike : (intake.under policy).arrived.length + data.length ≤ 213 := fits
    rw [append, append, dif_pos fits, dif_pos alike]
    rfl
  · have alike : ¬ (intake.under policy).arrived.length + data.length ≤ 213 := fits
    rw [append, append, dif_neg fits, dif_neg alike]

/-- A payload is dropped or kept alike under every policy. -/
theorem finish_under (intake : Intake) (policy : FlagPolicy) :
    (intake.under policy).finish.2 = intake.finish.2.under policy := by
  -- Whether it is complete depends on what has arrived alone.
  by_cases short : intake.arrived.length < 213
  · have alike : (intake.under policy).arrived.length < 213 := short
    rw [finish, finish, if_pos short, if_pos alike]
  · have alike : ¬ (intake.under policy).arrived.length < 213 := short
    rw [finish, finish, if_neg short, if_neg alike]
    rfl

/-- A complete payload that only the lenient policy takes. -/
def Disputed (intake : Intake) : Prop :=
  intake.arrived.length = 213 ∧ FlagPolicy.strict.Refuses (Layout.flag intake.arrived)

/-- The strict policy refuses the flag of a disputed payload. -/
theorem finish_strict_of_disputed {intake : Intake} (disputed : intake.Disputed) :
    (intake.under .strict).finish.1 = .refused .wrongFlag := by
  -- The payload is complete, so the flag decides.
  obtain ⟨complete, refused⟩ := disputed
  have alike : ¬ (intake.under .strict).arrived.length < 213 := by
    show ¬ intake.arrived.length < 213
    omega
  rw [finish, if_neg alike, verdict]
  exact if_pos refused

/-- Any other payload comes to the same under both policies, and not to the refusal of a flag. -/
theorem finish_strict_of_not_disputed {intake : Intake} (clear : ¬ intake.Disputed) :
    (intake.under .strict).finish.1 = (intake.under .lenient).finish.1 ∧
      (intake.under .lenient).finish.1 ≠ .refused .wrongFlag := by
  -- It is incomplete, or its flag is taken by both policies.
  have within := intake.within
  by_cases short : intake.arrived.length < 213
  · have alike (policy : FlagPolicy) : (intake.under policy).arrived.length < 213 := short
    rw [finish, finish, if_pos (alike .strict), if_pos (alike .lenient)]
    refine ⟨rfl, ?_⟩
    intro same
    cases same
  · have alike (policy : FlagPolicy) : ¬ (intake.under policy).arrived.length < 213 := short
    have accepted : ¬ FlagPolicy.strict.Refuses (Layout.flag intake.arrived) := by
      intro refused
      exact clear ⟨by omega, refused⟩
    have taken := FlagPolicy.not_lenient_refuses (Layout.flag intake.arrived)
    have outputs (policy : FlagPolicy) (takes : ¬ policy.Refuses (Layout.flag intake.arrived)) :
        (intake.under policy).finish.1 =
          .output (Rows.compress (Layout.params intake.arrived)).encode := by
      rw [finish, if_neg (alike policy), verdict]
      exact if_neg takes
    rw [outputs .strict accepted, outputs .lenient taken]
    refine ⟨rfl, ?_⟩
    intro same
    cases same

namespace Desk

/-- The same desk with everything on it under another policy. -/
def under (desk : Desk) (policy : FlagPolicy) : Desk :=
  ⟨desk.current.under policy, desk.kept.map (·.under policy)⟩

/-- The desk after a history. -/
def after (desk : Desk) : List Step → Desk
  | [] => desk
  | first :: rest => (desk.step first).2.after rest

/-- What an operation leaves behind does not depend on the policy. -/
theorem step_under (desk : Desk) (policy : FlagPolicy) (operation : Step) :
    ((desk.under policy).step operation).2 = (desk.step operation).2.under policy := by
  -- No operation but finishing looks at the policy, and that one leaves the same behind.
  cases operation with
  | append data => simp only [step, under, append_under]
  | finish => simp only [step, under, finish_under]
  | clear => rfl
  | withEngine engine => rfl
  | keep => rfl
  | restore age =>
    have chosen := List.getD_map desk.kept desk.current (n := age) (·.under policy)
    simp only [step, under, chosen]

/-- What a history leaves behind does not depend on the policy either. -/
theorem after_under (desk : Desk) (policy : FlagPolicy) (steps : List Step) :
    (desk.under policy).after steps = (desk.after steps).under policy := by
  -- The rest of the history starts from the same desk under the policy.
  induction steps generalizing desk with
  | nil => rfl
  | cons first rest ih => rw [after, step_under, ih, after]

/-- The policies give one answer to every operation but one that finishes a disputed payload. -/
theorem answer_strict_of_not_disputed (desk : Desk) {operation : Step}
    (clear : ¬ (operation = .finish ∧ desk.current.Disputed)) :
    ((desk.under .strict).step operation).1 = ((desk.under .lenient).step operation).1 ∧
      ((desk.under .lenient).step operation).1 ≠ .refused .wrongFlag := by
  -- Only finishing depends on the policy.
  cases operation with
  | finish =>
    have settled : ¬ desk.current.Disputed := fun disputed => clear ⟨rfl, disputed⟩
    exact finish_strict_of_not_disputed settled
  | append data =>
    have answer (policy : FlagPolicy) :
        ((desk.under policy).step (.append data)).1 = (desk.current.append data).1 := by
      simp only [step, under, append_under]
    rw [answer .strict, answer .lenient]
    refine ⟨rfl, ?_⟩
    -- A piece can be refused for its length only.
    by_cases fits : desk.current.arrived.length + data.length ≤ 213
    · rw [append, dif_pos fits]
      intro same
      cases same
    · rw [append, dif_neg fits]
      intro same
      cases same
  | clear => exact ⟨rfl, Answer.noConfusion⟩
  | withEngine engine => exact ⟨rfl, Answer.noConfusion⟩
  | keep => exact ⟨rfl, Answer.noConfusion⟩
  | restore age => exact ⟨rfl, Answer.noConfusion⟩

end Desk

end Intake

namespace PayloadBuffer

/-- A complete payload has arrived that only the lenient policy takes. -/
def Disputed (buffer : PayloadBuffer) : Prop :=
  buffer.remaining = 0 ∧ buffer.bytes.flag ≠ 0 ∧ buffer.bytes.flag ≠ 1

/-- The payload of a buffer is in dispute if that of its intake is. -/
theorem Shows.disputed_iff {buffer : PayloadBuffer} {intake : Intake}
    (shows : buffer.Shows intake) : buffer.Disputed ↔ intake.Disputed := by
  -- The bytes of a complete payload are those of the intake.
  have within := intake.within
  have missing := shows.remaining_eq
  constructor
  · intro disputed
    obtain ⟨nothing, zero, one⟩ := disputed
    have complete : intake.arrived.length = 213 := by omega
    rw [← Layout.flag_toList, shows.toList_of_complete (by omega)] at zero one
    exact ⟨complete, rfl, zero, one⟩
  · intro disputed
    obtain ⟨complete, -, zero, one⟩ := disputed
    have nothing : buffer.remaining = 0 := by omega
    rw [← shows.toList_of_complete (by omega), Layout.flag_toList] at zero one
    exact ⟨nothing, zero, one⟩

namespace Desk

/-- The desk after a history. -/
def after (machine : Machine) (desk : Desk) : List Step → Desk
  | [] => desk
  | first :: rest => (desk.step machine first).2.after machine rest

/-- A desk shows a desk of intakes after every history. -/
theorem Shows.after {desk : Desk} {shown : Intake.Desk} (machine : Machine)
    (shows : desk.Shows shown) (steps : List Step) :
    (desk.after machine steps).Shows (shown.after steps) := by
  -- Each operation keeps the one desk showing the other.
  induction steps generalizing desk shown with
  | nil => exact shows
  | cons first rest ih => exact ih (shows.step machine first).2

/-- What one operation does to two desks of different policy. -/
structure Lockstep (machine : Machine) (lenient strict : Desk) (operation : Step) : Prop where
  /-- Both buffers tell the same about how much has arrived. -/
  observers : (seen (strict.step machine operation)).2 = (seen (lenient.step machine operation)).2
  /-- The strict policy refuses the flag of a complete payload, and only there. -/
  wrongFlag : (strict.step machine operation).1 = .refused .wrongFlag ↔
    operation = .finish ∧ strict.current.Disputed
  /-- In all other cases both give the same answer. -/
  answer : ¬ (operation = .finish ∧ strict.current.Disputed) →
    (strict.step machine operation).1 = (lenient.step machine operation).1

/-- Two desks that show the same intakes under the two policies go in lockstep. -/
theorem lockstep_of_shows (machine : Machine) {lenient strict : Desk} {shown : Intake.Desk}
    (left : lenient.Shows (shown.under .lenient)) (right : strict.Shows (shown.under .strict))
    (operation : Step) : Lockstep machine lenient strict operation := by
  -- Either desk answers as its intakes do, and these are the same but for their policy.
  obtain ⟨leftAnswer, leftAfter⟩ := left.step machine operation
  obtain ⟨rightAnswer, rightAfter⟩ := right.step machine operation
  have disputed : strict.current.Disputed ↔ shown.current.Disputed := right.current.disputed_iff
  have observers : (seen (strict.step machine operation)).2 =
      (seen (lenient.step machine operation)).2 := by
    rw [Shows.seen_eq leftAnswer leftAfter, Shows.seen_eq rightAnswer rightAfter]
    simp only [Intake.Desk.seen, Intake.Desk.step_under]
    rfl
  by_cases inDispute : operation = .finish ∧ shown.current.Disputed
  · obtain ⟨rfl, flagged⟩ := inDispute
    have refused : (strict.step machine .finish).1 = .refused .wrongFlag :=
      rightAnswer.trans (Intake.finish_strict_of_disputed flagged)
    have both : strict.current.Disputed := disputed.mpr flagged
    exact ⟨observers, ⟨fun _ => ⟨rfl, both⟩, fun _ => refused⟩,
      fun apart => absurd ⟨rfl, both⟩ apart⟩
  · obtain ⟨alike, taken⟩ := shown.answer_strict_of_not_disputed inDispute
    have same : (strict.step machine operation).1 = (lenient.step machine operation).1 := by
      rw [rightAnswer, leftAnswer, alike]
    refine ⟨observers, ⟨?_, ?_⟩, fun _ => same⟩
    · intro refused
      rw [same, leftAnswer] at refused
      exact absurd refused taken
    · intro refusal
      obtain ⟨finishing, both⟩ := refusal
      exact absurd ⟨finishing, disputed.mp both⟩ inDispute

end Desk

end PayloadBuffer

/-- A lenient and a strict call, and a lenient and a strict buffer, differ in the refusal of a flag only. -/
theorem FlagPolicy.lenient_and_strict_differ_in_flag_only (machine : Machine) :
    (∀ bytes gasLimit, Call.lenient machine bytes gasLimit =
      Call.strict machine (Layout.canonical bytes) gasLimit) ∧
    (∀ bytes gasLimit, Call.strict machine bytes gasLimit =
      if bytes.length = 213 ∧ Layout.rounds bytes ≤ gasLimit.toNat ∧
          Layout.flag bytes ≠ 0 ∧ Layout.flag bytes ≠ 1 then
        ⟨[.wrongFlag (Layout.flag bytes)], .error .wrongFlag⟩
      else Call.lenient machine bytes gasLimit) ∧
    ∀ (first second : Engine) (steps : List Step) (operation : Step),
      PayloadBuffer.Desk.Lockstep machine
        ((PayloadBuffer.Desk.fresh ((PayloadBuffer.empty machine .lenient).withEngine first)).after
          machine steps)
        ((PayloadBuffer.Desk.fresh ((PayloadBuffer.empty machine .strict).withEngine second)).after
          machine steps)
        operation := by
  -- The two statements about calls have been shown, which leaves the histories.
  refine ⟨Call.lenient_eq_strict_canonical machine, Call.strict_eq_lenient machine, ?_⟩
  intro first second steps operation
  have fresh (policy : FlagPolicy) (engine : Engine) :
      (PayloadBuffer.Desk.fresh ((PayloadBuffer.empty machine policy).withEngine engine)).Shows
        ((Intake.Desk.fresh (Intake.empty .lenient)).under policy) := by
    have start := (PayloadBuffer.shows_empty machine policy).withEngine engine
    exact ⟨start, .cons start .nil⟩
  -- Both desks have shown the same intakes from the start, and still do.
  have left := (fresh .lenient first).after machine steps
  have right := (fresh .strict second).after machine steps
  rw [Intake.Desk.after_under] at left right
  exact PayloadBuffer.Desk.lockstep_of_shows machine left right operation

end Blake2F
