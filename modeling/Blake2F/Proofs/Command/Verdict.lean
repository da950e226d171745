import Blake2F.Proofs.Command.Outcome
import Blake2F.Proofs.Command.Source
import Blake2F.Proofs.Policies
import Blake2F.Proofs.Text.Spelling

/-! The three commands that read a payload take the same payloads, and refuse all others for the same reason. -/

namespace Blake2F

attribute [local simp] Except.map Except.mapError Except.bind Bind.bind

/-- What went wrong, whichever command it was. -/
inductive Fault where
  /-- There is no payload to read. -/
  | source (error : SourceError)
  /-- The payload is refused. -/
  | payload (error : CallError)
  /-- A field to encode has the wrong length. -/
  | fieldLength
  /-- An engine gives another output than the portable one. -/
  | mismatch (engine : Engine)
  /-- The machine lacks an engine. -/
  | unavailable (engine : Engine)
  deriving DecidableEq, Repr

/-- Whether it is the payload that is at fault, by its place, its text or its length. -/
def Fault.OfPayload : Fault → Prop
  | source .pathNotExists | source (.io _) | source .invalidHex | payload .wrongLength => True
  | _ => False

/-- The fault of an error in reading parameters. -/
@[simp] def SampleError.fault : SampleError → Fault
  | source error => .source error
  | payload error => .payload error

/-- The fault of an error, whichever command it is of. -/
@[simp] def CommandError.fault : CommandError → Fault
  | call (.source error) => .source error
  | call (.call error) => .payload error
  | encode .invalidHex => .source .invalidHex
  | encode _ => .fieldLength
  | compare (.sample error) => error.fault
  | compare (.mismatch engine) => .mismatch engine
  | time (.sample error) => error.fault
  | time (.unavailable engine) => .unavailable engine

namespace Source

variable {files : String → PathState} {source : Source}

/-- What cannot be read gives no parameters. -/
theorem params_of_read_error {error : SourceError} (read : source.read files = .error error) :
    source.params files = .error (.source error) := by
  -- The error is passed on as that of the source.
  simp [params, read]

/-- What is read, or else the sample, is decoded. -/
theorem params_of_read {given : Option Bytes} (read : source.read files = .ok given) :
    source.params files =
      (Payload.decodeBytes (given.getD Params.sample.encode.toList) .lenient).mapError .payload := by
  -- Reading has gone well, so the next step is taken.
  rw [params, read]
  rfl

/-- The length alone decides on a payload, since the lenient policy refuses no flag. -/
theorem params_of_payload {payload : Bytes} (read : source.read files = .ok (some payload)) :
    source.params files =
      if payload.length = 213 then .ok (Layout.params payload) else .error (.payload .wrongLength) := by
  -- A byte string of the right length is a payload.
  rw [params_of_read read, Option.getD_some]
  by_cases sized : payload.length = 213
  · obtain ⟨(payload : Payload), rfl⟩ := Bytes.exists_toList sized
    simp [Payload.decodeBytes_toList, Payload.decode_eq,
      FlagPolicy.not_lenient_refuses]
  · simp [Payload.decodeBytes, Bytes.toVector?_eq_none_iff.mpr sized, sized]

/-- An encoding is decoded without an error. -/
theorem mapError_decodeBytes_encode (params : Params) :
    (Payload.decodeBytes params.encode.toList .lenient).mapError SampleError.payload = .ok params := by
  -- Its flag is zero or one.
  rw [Payload.decodeBytes_toList, Payload.decode_encode]
  rfl

/-- Where nothing is given, the parameters are those of the sample. -/
theorem params_of_nothing_given (read : source.read files = .ok none) :
    source.params files = .ok Params.sample := by
  -- The sample is encoded and decoded again.
  rw [params_of_read read, Option.getD_none, mapError_decodeBytes_encode]

/-- A payload that is printed and given as an argument. -/
def printed (params : Params) : Source := { text := some (Hex.encode params.encode.toList) }

/-- A printed payload gives back its parameters. -/
theorem params_printed (params : Params) : (printed params).params files = .ok params := by
  -- Its digits are a text without any dress.
  have plain : Hex.Dresses (Hex.encode params.encode.toList) (Hex.encode params.encode.toList) :=
    ⟨[], 0, [], by simp, by simp, by simp [Hex.markers]⟩
  have read : (printed params).read files = .ok (some params.encode.toList) := by
    rw [printed, Supplies.argument.read_eq, Hex.parse?_of_dresses plain]
  rw [params_of_read read, Option.getD_some, mapError_decodeBytes_encode]

/-- Whether there are parameters in a source, and the fault if there are none. -/
def verdict (files : String → PathState) (source : Source) : Except Fault Unit :=
  ((source.params files).map fun _ => ()).mapError SampleError.fault

/-- No engine is to blame for parameters that are missing. -/
theorem verdict_eq_error {fault : Fault} (failed : source.verdict files = .error fault) :
    (∃ error, fault = .source error) ∨ ∃ error, fault = .payload error := by
  -- An error is that of the source or that of the payload.
  rw [verdict] at failed
  cases read : source.params files with
  | ok params => simp [read] at failed
  | error error =>
    simp only [read, Except.map, Except.mapError, Except.error.injEq] at failed
    subst failed
    cases error with
    | source error => exact .inl ⟨error, rfl⟩
    | payload error => exact .inr ⟨error, rfl⟩

end Source

namespace Call

variable (machine : Machine) {payload : Bytes}

/-- What the default options come to for a byte string of the right length: nothing is refused. -/
theorem run_default_of_length_eq (sized : payload.length = 213) :
    run machine .lenient payload 0xffffffffffffffff =
      ⟨[.compressed (UInt32.ofNat (Layout.rounds payload))
          (gasOfRounds (UInt32.ofNat (Layout.rounds payload)))],
        .ok ⟨gasOfRounds (UInt32.ofNat (Layout.rounds payload)),
          (Rows.compress (Layout.params payload)).encode⟩⟩ := by
  -- No round count costs as much as the default gas limit.
  have paid : ¬ (0xffffffffffffffff : UInt64).toNat < Layout.rounds payload :=
    Nat.not_lt.mpr (Nat.le_of_lt (Nat.lt_trans (Layout.rounds_lt payload) (by decide)))
  rw [run_eq_answer, answer, if_neg (not_not_intro sized), if_neg paid,
    if_neg (FlagPolicy.not_lenient_refuses _)]

/-- What the default options come to for any other byte string. -/
theorem run_default_of_length_ne (sized : payload.length ≠ 213) :
    run machine .lenient payload 0xffffffffffffffff =
      ⟨[.wrongLength payload.length], .error .wrongLength⟩ := by
  -- The length is checked first.
  rw [run_eq_answer, answer, if_pos sized]

end Call

namespace Timing

variable (machine : Machine) {files : String → PathState} {timing : Timing}

/-- The engine that a timing is on. -/
def chosen (machine : Machine) (timing : Timing) : Engine :=
  timing.engine.getD (Engine.detect machine)

/-- The engine chosen for want of a name is one that the machine has. -/
theorem isAvailable_chosen (unnamed : timing.engine = none) :
    (timing.chosen machine).isAvailable machine := by
  -- It is the one that is detected.
  rw [chosen, unnamed]
  exact Engine.isAvailable_detect machine

/-- Without parameters there is no work. -/
theorem work_of_error {error : SampleError} (read : timing.source.params files = .error error) :
    timing.work machine files = .error (.sample error) := by
  -- The engine is not even looked at.
  simp [work, read]

/-- The engine is looked at once there is something to compress. -/
theorem work_of_params {params : Params} (read : timing.source.params files = .ok params) :
    timing.work machine files =
      if (timing.chosen machine).isAvailable machine then .ok ⟨params, timing.chosen machine⟩
      else .error (.unavailable (timing.chosen machine)) := by
  -- The parameters are there, so only the test of the engine is left.
  simp only [work, read, chosen]
  rfl

end Timing

namespace Command

/-- Whether a command succeeds, and the fault if it does not. -/
def verdict (around : Surroundings) (command : Command) : Except Fault Unit :=
  (outcome around command).1.mapError CommandError.fault

variable (around : Surroundings)

/-- Comparing succeeds exactly where there are parameters. -/
theorem verdict_compare (source : Source) :
    verdict around (.compare source) = source.verdict around.files := by
  -- No engine can disagree, so nothing else can fail.
  rw [verdict, outcome_compare, Source.verdict]
  cases read : source.params around.files with
  | error error => simp [Agreement.outcome_of_error read]
  | ok params => simp [Agreement.outcome_of_params read]

/-- Calling with a payload that is given comes to what trying engines on it comes to. -/
theorem verdict_call_of_given {source : Source} (given : source.Given) :
    verdict around (.call { source }) = source.verdict around.files := by
  -- Either the payload cannot be read, or its length decides.
  rw [verdict, outcome_call, Source.verdict]
  cases read : source.read around.files with
  | error error =>
    simp [Calling.outcome_of_read_error { source } read, Source.params_of_read_error read]
  | ok found =>
    cases found with
    | none => exact absurd read (Source.read_ne_none given)
    | some payload =>
      -- Under the default options the call looks at the length alone, as decoding does.
      rw [Calling.outcome_of_payload { source } read, Source.params_of_payload read]
      simp only [Calling.policy, Bool.false_eq_true, if_false]
      by_cases sized : payload.length = 213
      · simp [Call.run_default_of_length_eq _ sized, sized]
      · simp [Call.run_default_of_length_ne _ sized, sized]

/-- Timing succeeds or fails as comparing does, but for an engine that the machine lacks. -/
theorem verdict_time (timing : Timing) :
    verdict around (.time timing) =
      match timing.source.verdict around.files with
      | .error fault => .error fault
      | .ok _ =>
        if (timing.chosen around.machine).isAvailable around.machine then .ok ()
        else .error (.unavailable (timing.chosen around.machine)) := by
  -- The parameters are read first, and their fault goes before that of the engine.
  rw [verdict, outcome_time, Source.verdict]
  cases read : timing.source.params around.files with
  | error error =>
    simp [Timing.outcome_of_error (Timing.work_of_error _ read)]
  | ok params =>
    -- The payload is in order, so only the engine can be missing.
    have work := Timing.work_of_params around.machine read
    by_cases available : (timing.chosen around.machine).isAvailable around.machine
    · rw [if_pos available] at work
      simp [Timing.outcome_of_work work, available]
    · rw [if_neg available] at work
      simp [Timing.outcome_of_error work, available]

/-- Faults of a source that is given lie with its payload. -/
theorem ofPayload_of_verdict {source : Source} (given : source.Given) {fault : Fault}
    (failed : source.verdict around.files = .error fault) : fault.OfPayload := by
  -- The source fails to be read, or what is read from it has the wrong length.
  rw [Source.verdict] at failed
  cases read : source.read around.files with
  | error error =>
    simp only [Source.params_of_read_error read, Except.map, Except.mapError, SampleError.fault,
      Except.error.injEq] at failed
    subst failed
    rcases Source.error_of_read read with rfl | ⟨reason, rfl⟩ | rfl <;> trivial
  | ok found =>
    cases found with
    | none => exact absurd read (Source.read_ne_none given)
    | some payload =>
      rw [Source.params_of_payload read] at failed
      split at failed
      · cases failed
      · cases failed
        trivial

/-- Comparing never finds an engine to blame. -/
theorem verdict_compare_ne_mismatch {source : Source} {engine : Engine} :
    verdict around (.compare source) ≠ .error (.mismatch engine) := by
  -- Its faults are those of the source and of the payload.
  rw [verdict_compare]
  intro failed
  rcases Source.verdict_eq_error failed with ⟨error, same⟩ | ⟨error, same⟩
  · cases same
  · cases same

/-- Comparing never logs a mismatch. -/
theorem mismatch_not_logged {source : Source} {engine : Engine} (output : Bytes) :
    .mismatch engine output ∉ (outcome around (.compare source)).2.log := by
  -- The log is empty, or it holds the one output on which all agree.
  cases read : source.params around.files with
  | error error => simp [Agreement.outcome_of_error read]
  | ok params => simp [Agreement.outcome_of_params read]

/-- Comparing logs the output that calling prints, though each goes its own way to it. -/
theorem agreed_output_printed {source : Source} (given : source.Given)
    (taken : verdict around (.compare source) = .ok ()) :
    ∃ output : Vector UInt8 64,
      (outcome around (.compare source)).2.log = [.agreed output.toList] ∧
      (outcome around (.call { source })).2.stdout.head? = some (Hex.encode output.toList) := by
  -- Comparing has succeeded, so there is a payload, and it has the right length.
  rw [verdict_compare, Source.verdict] at taken
  cases read : source.read around.files with
  | error error => simp [Source.params_of_read_error read] at taken
  | ok found =>
    cases found with
    | none => exact absurd read (Source.read_ne_none given)
    | some payload =>
      have params := Source.params_of_payload read
      by_cases sized : payload.length = 213
      · -- Both come to compressing what the fields of the payload hold.
        rw [if_pos sized] at params
        refine ⟨(Rows.compress (Layout.params payload)).encode, ?_, ?_⟩
        · rw [outcome_compare, Agreement.outcome_of_params params]
        · rw [outcome_call, Calling.outcome_of_payload { source } read]
          simp [Calling.policy, Call.run_default_of_length_eq _ sized, Calling.lines]
      · simp [params, sized] at taken

/-- What the three commands that read a payload have in common. -/
structure SharesPayloads : Prop where
  /-- Where a payload is given, all three succeed, or all three fail for the same reason; a timing is on an
  engine that the machine has. -/
  together (source : Source) (timing : Timing) : source.Given → timing.source = source →
    (timing.chosen around.machine).isAvailable around.machine →
      verdict around (.call { source }) = verdict around (.compare source) ∧
      verdict around (.time timing) = verdict around (.compare source)
  /-- A timing that names no engine is on one that the machine has. -/
  detected (timing : Timing) : timing.engine = none →
    (timing.chosen around.machine).isAvailable around.machine
  /-- That reason is never the gas, the flag or an engine. -/
  faults (source : Source) (fault : Fault) : source.Given →
    verdict around (.compare source) = .error fault → fault.OfPayload
  /-- A path hides the argument from all three, whatever their other options. -/
  path_first (path : String) (argument other : Option String) (calling : Calling) (timing : Timing) :
    outcome around (.call { calling with source := ⟨argument, some path⟩ }) =
      outcome around (.call { calling with source := ⟨other, some path⟩ }) ∧
    outcome around (.compare ⟨argument, some path⟩) = outcome around (.compare ⟨other, some path⟩) ∧
    outcome around (.time { timing with source := ⟨argument, some path⟩ }) =
      outcome around (.time { timing with source := ⟨other, some path⟩ })
  /-- An engine that the machine lacks is reported exactly where the timing would succeed on one that it has,
  and any other fault stays what it is. -/
  unavailable (timing : Timing) (there : Engine) :
    (timing.chosen around.machine).isAvailable around.machine = false →
    there.isAvailable around.machine →
      (verdict around (.time timing) = .error (.unavailable (timing.chosen around.machine)) ↔
        verdict around (.time { timing with engine := some there }) = .ok ()) ∧
      ∀ fault, verdict around (.time { timing with engine := some there }) = .error fault →
        verdict around (.time timing) = .error fault
  /-- Without a payload, calling fails, and the other two work on the sample. -/
  nothing_given (calling : Calling) (timing : Timing) : calling.source = {} → timing.source = {} →
    (timing.chosen around.machine).isAvailable around.machine →
      verdict around (.call calling) = .error (.source .missingPayload) ∧
      verdict around (.compare {}) = .ok () ∧
      outcome around (.compare {}) = outcome around (.compare (.printed .sample)) ∧
      verdict around (.time timing) = .ok () ∧
      outcome around (.time timing) = outcome around (.time { timing with source := .printed .sample })
  /-- Where comparing succeeds on a payload, it logs the output that calling prints first. -/
  output (source : Source) : source.Given → verdict around (.compare source) = .ok () →
    ∃ output : Vector UInt8 64,
      (outcome around (.compare source)).2.log = [.agreed output.toList] ∧
      (outcome around (.call { source })).2.stdout.head? = some (Hex.encode output.toList)
  /-- No mismatch is ever reported or logged. -/
  no_mismatch (source : Source) (engine : Engine) :
    verdict around (.compare source) ≠ .error (.mismatch engine) ∧
    ∀ output, .mismatch engine output ∉ (outcome around (.compare source)).2.log

/-- A timing depends on its source through its parameters only. -/
theorem outcome_time_congr (timing other : Timing) (iterations : timing.iterations = other.iterations)
    (engine : timing.engine = other.engine)
    (params : timing.source.params around.files = other.source.params around.files) :
    outcome around (.time timing) = outcome around (.time other) := by
  -- The work is the same, and so is the report on it.
  have work : timing.work around.machine around.files = other.work around.machine around.files := by
    rw [Timing.work, Timing.work, params, engine]
  rw [outcome_time, outcome_time, Timing.run, Timing.run, work, iterations]

/-- Calling, comparing and timing take the same payloads in any surroundings. -/
theorem shares_payloads : SharesPayloads around where
  together source timing given same available := by
    subst same
    rw [verdict_call_of_given around given, verdict_compare, verdict_time, if_pos available]
    refine ⟨rfl, ?_⟩
    cases timing.source.verdict around.files with
    | error fault => rfl
    | ok _ => rfl
  detected timing unnamed := Timing.isAvailable_chosen around.machine unnamed
  faults source fault given failed := by
    rw [verdict_compare] at failed
    exact ofPayload_of_verdict around given failed
  path_first path argument other calling timing := ⟨rfl, rfl, rfl⟩
  unavailable timing there missing available := by
    have present : ({ timing with engine := some there } : Timing).chosen around.machine = there := rfl
    rw [verdict_time, verdict_time, present, if_pos available, if_neg (by simp [missing])]
    cases found : timing.source.verdict around.files with
    | error fault =>
      rcases Source.verdict_eq_error found with ⟨error, rfl⟩ | ⟨error, rfl⟩ <;> simp
    | ok _ => simp
  nothing_given calling timing uncalled nothing available := by
    have read : Source.read around.files {} = .ok none := rfl
    have params := Source.params_of_nothing_given read
    have verdict : Source.verdict around.files {} = .ok () := by
      rw [Source.verdict, params]
      rfl
    refine ⟨?_, ?_, ?_, ?_, ?_⟩
    · rw [← uncalled] at read
      rw [Command.verdict, outcome_call, Calling.outcome_of_nothing_given calling read]
      rfl
    · rw [verdict_compare, verdict]
    · -- The sample printed and read back gives the sample's parameters again.
      rw [outcome_compare, outcome_compare, Agreement.outcome_of_params params,
        Agreement.outcome_of_params (Source.params_printed _)]
    · rw [verdict_time, nothing, verdict]
      simp [available]
    · refine outcome_time_congr around timing { timing with source := .printed .sample } rfl rfl ?_
      rw [nothing, params, Source.params_printed]
  output source given taken := agreed_output_printed around given taken
  no_mismatch source engine := ⟨verdict_compare_ne_mismatch around, mismatch_not_logged around⟩

end Command

end Blake2F
