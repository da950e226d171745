import Blake2F.Call
import Blake2F.Proofs.Engine.Lanes
import Blake2F.Proofs.Layout

/-! Calls: which check decides, what comes out, and the one event that each call leaves in the log. -/

namespace Blake2F

/-- The engine chosen never shows in the bytes of a compression. -/
theorem Params.compressWith_eq (machine : Machine) (engine : Engine) (params : Params) :
    params.compressWith machine engine = (Rows.compress params).encode := by
  -- All engines leave the same state.
  rw [Params.compressWith, Engine.compress_eq_rows]

namespace Call

/-- What a call comes to, by the fields of its payload alone. -/
def answer (policy : FlagPolicy) (bytes : Bytes) (gasLimit : UInt64) :
    Traced (Except CallError Output) :=
  -- Length, gas and flag are checked in this order, and the first fault found decides.
  let rounds := UInt32.ofNat (Layout.rounds bytes)
  let flag := Layout.flag bytes
  if bytes.length ≠ 213 then ⟨[.wrongLength bytes.length], .error .wrongLength⟩
  else if gasLimit.toNat < Layout.rounds bytes then
    ⟨[.outOfGas rounds gasLimit], .error .outOfGas⟩
  else if policy.Refuses flag then ⟨[.wrongFlag flag], .error .wrongFlag⟩
  else
    ⟨[.compressed rounds (gasOfRounds rounds)],
      .ok ⟨gasOfRounds rounds, (Rows.compress (Layout.params bytes)).encode⟩⟩

/-- A call comes to its answer on every machine. -/
theorem run_eq_answer (machine : Machine) (policy : FlagPolicy) (bytes : Bytes)
    (gasLimit : UInt64) : run machine policy bytes gasLimit = answer policy bytes gasLimit := by
  by_cases sized : bytes.length = 213
  · -- A string of the right length is a payload, whose fields lie at their positions.
    obtain ⟨(payload : Payload), rfl⟩ := Bytes.exists_toList sized
    rw [run, Bytes.toVector?_toList, answer, if_neg (not_not_intro sized), Layout.rounds_toList]
    simp only [UInt64.lt_iff_toNat_lt, Layout.toNat_gasOfRounds]
    by_cases dear : gasLimit.toNat < Layout.rounds payload.toList
    · rw [if_pos dear, if_pos dear]
    · rw [if_neg dear, if_neg dear, Payload.decode_eq]
      by_cases refused : policy.Refuses (Layout.flag payload.toList)
      · rw [if_pos refused, if_pos refused, Layout.flag_toList]
      · rw [if_neg refused, if_neg refused]
        simp only [Params.compress, Params.compressWith_eq]
  · -- Any other string is refused before a field is read.
    have absent := Bytes.toVector?_eq_none_iff.mpr sized
    rw [run, absent, answer, if_pos sized]

/-- An output is known by its gas and its bytes. -/
theorem output_eq_iff (bytes : Bytes) (output : Output) :
    ⟨gasOfRounds (UInt32.ofNat (Layout.rounds bytes)),
        (Rows.compress (Layout.params bytes)).encode⟩ = output ↔
      output.gasUsed.toNat = Layout.rounds bytes ∧
        output.bytes.toList = Layout.serialize (Rows.compress (Layout.params bytes)) := by
  -- Both sides compare the gas as numbers and the bytes as lists.
  have gas : (gasOfRounds (UInt32.ofNat (Layout.rounds bytes))).toNat = Layout.rounds bytes := by
    rw [gasOfRounds_toNat, UInt32.toNat_ofNat_of_lt' (Layout.rounds_lt bytes)]
  rcases output with ⟨gasUsed, shown⟩
  rw [Output.mk.injEq, ← UInt64.toNat_inj, ← Vector.toList_inj, Layout.toList_encode, gas]
  exact and_congr eq_comm eq_comm

/-- The event that goes with what a call comes to. -/
def eventOf (bytes : Bytes) (gasLimit : UInt64) : Except CallError Output → Event
  | .error .wrongLength => .wrongLength bytes.length
  | .error .outOfGas => .outOfGas (UInt32.ofNat (Layout.rounds bytes)) gasLimit
  | .error .wrongFlag => .wrongFlag (Layout.flag bytes)
  | .ok output => .compressed (UInt32.ofNat (Layout.rounds bytes)) output.gasUsed

/-- What callers may rely on under a flag policy, told by the fields of the byte string. -/
structure Settles (policy : FlagPolicy) (bytes : Bytes) (gasLimit : UInt64)
    (traced : Traced (Except CallError Output)) : Prop where
  /-- The length is checked before anything else. -/
  wrongLength : traced.value = .error .wrongLength ↔ bytes.length ≠ 213
  /-- The gas is checked next, whatever the flag. -/
  outOfGas : traced.value = .error .outOfGas ↔
    bytes.length = 213 ∧ gasLimit.toNat < Layout.rounds bytes
  /-- The flag is checked last, and only by the strict policy. -/
  wrongFlag : traced.value = .error .wrongFlag ↔
    bytes.length = 213 ∧ Layout.rounds bytes ≤ gasLimit.toNat ∧
      policy = .strict ∧ Layout.flag bytes ≠ 0 ∧ Layout.flag bytes ≠ 1
  /-- All else is compressed, at one unit of gas a round. -/
  compressed (output : Output) : traced.value = .ok output ↔
    bytes.length = 213 ∧ Layout.rounds bytes ≤ gasLimit.toNat ∧
      (policy = .strict → Layout.flag bytes = 0 ∨ Layout.flag bytes = 1) ∧
      output.gasUsed.toNat = Layout.rounds bytes ∧
      output.bytes.toList = Layout.serialize (Rows.compress (Layout.params bytes))
  /-- One event tells what came of the call. -/
  events : traced.events = [eventOf bytes gasLimit traced.value]
  /-- Calls are only traced. -/
  level : ∀ event ∈ traced.events, event.level = .trace

/-- The answer keeps every promise. -/
theorem answer_settles (policy : FlagPolicy) (bytes : Bytes) (gasLimit : UInt64) :
    Settles policy bytes gasLimit (answer policy bytes gasLimit) := by
  -- The cases follow the checks; in each, the answer is one of the four that there are.
  by_cases sized : bytes.length = 213
  · by_cases dear : gasLimit.toNat < Layout.rounds bytes
    · rw [answer, if_neg (not_not_intro sized), if_pos dear]
      constructor <;> simp [sized, dear, Nat.not_le.mpr dear, eventOf, Event.level]
    · have paid : Layout.rounds bytes ≤ gasLimit.toNat := Nat.not_lt.mp dear
      by_cases refused : policy.Refuses (Layout.flag bytes)
      · rw [answer, if_neg (not_not_intro sized), if_neg dear, if_pos refused]
        obtain ⟨strict, zero, one⟩ := refused
        constructor <;> simp [sized, dear, paid, strict, zero, one, eventOf, Event.level]
      · rw [answer, if_neg (not_not_intro sized), if_neg dear, if_neg refused]
        have taken : policy = .strict → Layout.flag bytes = 0 ∨ Layout.flag bytes = 1 := by
          intro strict
          by_contra neither
          exact refused ⟨strict, not_or.mp neither⟩
        refine ⟨by simp [sized], by simp [dear], ?_, ?_, rfl, by simp [Event.level]⟩
        · constructor
          · intro failed
            cases failed
          · intro ⟨_, _, strict, zero, one⟩
            exact absurd ⟨strict, zero, one⟩ refused
        · intro output
          rw [Except.ok.injEq, output_eq_iff]
          exact ⟨fun shown => ⟨sized, paid, taken, shown⟩, fun ⟨_, _, _, shown⟩ => shown⟩
  · rw [answer, if_pos sized]
    constructor <;> simp [sized, eventOf, Event.level]

/-- Every way of calling keeps the promises of its policy, on every machine. -/
theorem every_call_settles (machine : Machine) (bytes : Bytes) (gasLimit : UInt64) :
    (∀ policy, Settles policy bytes gasLimit (run machine policy bytes gasLimit)) ∧
    Settles .lenient bytes gasLimit (lenient machine bytes gasLimit) ∧
    Settles .strict bytes gasLimit (strict machine bytes gasLimit) ∧
    Settles .lenient bytes gasLimit ((Registration.lenient machine).call bytes gasLimit) ∧
    Settles .strict bytes gasLimit ((Registration.strict machine).call bytes gasLimit) := by
  have settled (policy : FlagPolicy) :
      Settles policy bytes gasLimit (run machine policy bytes gasLimit) := by
    rw [run_eq_answer]
    exact answer_settles policy bytes gasLimit
  -- The other ways only fix the policy, with or without an address.
  exact ⟨settled, settled .lenient, settled .strict, settled .lenient, settled .strict⟩

end Call

end Blake2F
