import Blake2F.Command
import Blake2F.Proofs.Call
import Blake2F.Proofs.Session

/-! What each command comes to: its result and all that it leaves behind, by the check that decides it. -/

namespace Blake2F

attribute [local simp] Except.mapError

namespace Calling

variable {machine : Machine} {files : String → PathState} (command : Calling)

/-- The lines about an output: its bytes, and the gas that they cost. -/
def lines (output : Output) : List String :=
  [Hex.encode output.bytes.toList, "gas used: " ++ output.gasUsed.toNat.repr]

/-- Where the payload cannot be read, that is the end of it. -/
theorem outcome_of_read_error {error : SourceError}
    (read : command.source.read files = .error error) :
    (command.run machine files).outcome = (.error (.source error), {}) := by
  -- Nothing is printed or logged before the payload has been read.
  simp [Session.outcome_eq_runFrom, run, read]

/-- Where no payload is given, there is nothing to call with. -/
theorem outcome_of_nothing_given (read : command.source.read files = .ok none) :
    (command.run machine files).outcome = (.error (.source .missingPayload), {}) := by
  -- The error is found in place of a payload, before the first event.
  simp [Session.outcome_eq_runFrom, run, read]

/-- The call decides on a payload that is given; what it has printed by then is nothing. -/
theorem outcome_of_payload {payload : Bytes} (read : command.source.read files = .ok (some payload)) :
    (command.run machine files).outcome =
      match Call.run machine command.policy payload command.gasLimit with
      | ⟨events, .error error⟩ =>
        (.error (.call error),
          { log := .calling payload.length command.policy command.gasLimit :: events })
      | ⟨events, .ok output⟩ =>
        (.ok (),
          { stdout := lines output
            log := .calling payload.length command.policy command.gasLimit ::
              events ++ [.succeeded] }) := by
  -- The session is run up to the call, whose answer then decides.
  simp [Session.outcome_eq_runFrom, run, read]
  rcases Call.run machine command.policy payload command.gasLimit with ⟨events, error | output⟩
  · rfl
  · rfl

end Calling

namespace Encoding

variable {machine : Machine} {command : Encoding}

/-- The lines about parameters: their payload, and their output if it is asked for. -/
def lines (machine : Machine) (compress : Bool) (params : Params) : List String :=
  Hex.encode params.encode.toList ::
    if compress then [Hex.encode (params.compress machine).toList] else []

/-- Parameters that cannot be put together leave nothing behind. -/
theorem outcome_of_error {error : EncodingError} (read : command.params = .error error) :
    (command.run machine).outcome = (.error error, {}) := by
  -- They are put together before anything is printed.
  simp [Session.outcome_eq_runFrom, run, read]

/-- Parameters that are put together are printed, with their output if it is asked for. -/
theorem outcome_of_params {params : Params} (read : command.params = .ok params) :
    (command.run machine).outcome =
      (.ok (),
        { stdout := lines machine command.compress params
          log := [.encoded params.rounds params.final] }) := by
  -- Only the second line depends on the command.
  rw [Session.outcome_eq_runFrom, run, lines]
  cases asked : command.compress with
  | false => simp [read]
  | true => simp [read]

end Encoding

namespace Agreement

variable {machine : Machine} {files : String → PathState} {source : Source}

/-- The line about an engine. -/
def line (machine : Machine) (engine : Engine) : String :=
  engine.name ++
    if engine.isAvailable machine then
      " ok" ++ if engine = Engine.detect machine then " (detected)" else ""
    else " unavailable"

/-- Every engine gives the output of the portable one, so its line is printed. -/
theorem check_eq_print (machine : Machine) (params : Params) (engine : Engine) :
    check machine params (Rows.compress params).encode engine =
      Session.print (line machine engine) := by
  -- The line is that of an engine which agrees, or which the machine lacks.
  rw [check, line]
  by_cases available : engine.isAvailable machine
  · -- The test of the outputs cannot fail, so the branch that logs a mismatch is dead.
    simp [available, Params.compressWith_eq, String.append_assoc]
  · simp [available]

/-- Without parameters to compare on, no engine is listed. -/
theorem outcome_of_error {error : SampleError} (read : source.params files = .error error) :
    (run machine files source).outcome = (.error (.sample error), {}) := by
  -- They are read before the first engine is looked at.
  simp [Session.outcome_eq_runFrom, run, read]

/-- With parameters, all engines are listed, and the one output is logged. -/
theorem outcome_of_params {params : Params} (read : source.params files = .ok params) :
    (run machine files source).outcome =
      (.ok (),
        { stdout := Engine.all.map (line machine)
          log := [.agreed (Rows.compress params).encode.toList] }) := by
  -- Every check prints its line, so the loop prints the lines of all engines.
  have checks : check machine params (Rows.compress params).encode =
      fun engine => Session.print (line machine engine) := by
    funext engine
    exact check_eq_print machine params engine
  simp [Session.outcome_eq_runFrom, run, read, Params.compressWith_eq, checks]

end Agreement

namespace Timing

variable {machine : Machine} {files : String → PathState} {command : Timing} {elapsed : Nat}

/-- Work that is refused leaves nothing behind. -/
theorem outcome_of_error {error : TimingError} (refused : command.work machine files = .error error) :
    (command.run machine files elapsed).outcome = (.error error, {}) := by
  -- Nothing is printed or logged before the work is known.
  simp [Session.outcome_eq_runFrom, run, refused]

/-- Work that is done is logged and reported. -/
theorem outcome_of_work {work : TimedWork} (found : command.work machine files = .ok work) :
    (command.run machine files elapsed).outcome =
      (.ok (),
        { stdout := [report work command.iterations elapsed]
          log := [.timed work.engine work.params.rounds command.iterations] }) := by
  -- Once the work is known, nothing can fail.
  simp [Session.outcome_eq_runFrom, run, found]

end Timing

namespace Command

variable (around : Surroundings)

/-- How a command ends, and all that it leaves behind. -/
def outcome (command : Command) : Except CommandError Unit × Transcript :=
  (command.run around).outcome

/-- Calling is one of the commands, and its errors are marked as those of a call. -/
@[simp] theorem outcome_call (command : Calling) :
    outcome around (.call command) =
      ((command.run around.machine around.files).outcome.1.mapError .call,
        (command.run around.machine around.files).outcome.2) := rfl

/-- Encoding is one of the commands, and its errors are marked as its own. -/
@[simp] theorem outcome_encode (command : Encoding) :
    outcome around (.encode command) =
      ((command.run around.machine).outcome.1.mapError .encode,
        (command.run around.machine).outcome.2) := rfl

/-- Comparing is one of the commands, and its errors are marked as its own. -/
@[simp] theorem outcome_compare (source : Source) :
    outcome around (.compare source) =
      ((Agreement.run around.machine around.files source).outcome.1.mapError .compare,
        (Agreement.run around.machine around.files source).outcome.2) := rfl

/-- Timing is one of the commands, and its errors are marked as its own. -/
@[simp] theorem outcome_time (command : Timing) :
    outcome around (.time command) =
      ((command.run around.machine around.files around.elapsed).outcome.1.mapError .time,
        (command.run around.machine around.files around.elapsed).outcome.2) := rfl

/-- The lines of a command that has done all it is asked for. -/
def Complete : Command → List String → Prop
  | .call command, lines =>
    -- The output and the gas are those of the call that the command is for.
    ∃ payload output, command.source.read around.files = .ok (some payload) ∧
      (Call.run around.machine command.policy payload command.gasLimit).value = .ok output ∧
      lines = [Hex.encode output.bytes.toList, "gas used: " ++ output.gasUsed.toNat.repr]
  | .encode command, lines =>
    ∃ params, command.params = .ok params ∧
      lines = Hex.encode params.encode.toList ::
        if command.compress then [Hex.encode (params.compress around.machine).toList] else []
  | .compare _, lines => lines = Engine.all.map (Agreement.line around.machine)
  | .time command, lines =>
    ∃ work, command.work around.machine around.files = .ok work ∧
      lines = [Timing.report work command.iterations around.elapsed]

/-- A command prints nothing if it fails, and all its lines if it does not. -/
theorem stdout_empty_or_complete (command : Command) :
    (∀ error, (outcome around command).1 = .error error → (outcome around command).2.stdout = []) ∧
    ((outcome around command).1 = .ok () →
      Complete around command (outcome around command).2.stdout) := by
  -- Each command is followed to the check that decides it; before that nothing is printed.
  cases command with
  | call command =>
    cases read : command.source.read around.files with
    | error error => simp [Calling.outcome_of_read_error command read]
    | ok given =>
      cases given with
      | none => simp [Calling.outcome_of_nothing_given command read]
      | some payload =>
        rw [outcome_call, Calling.outcome_of_payload command read]
        cases traced : Call.run around.machine command.policy payload command.gasLimit with
        | mk events value =>
          cases value with
          | error error => simp
          | ok output => simp [Complete, read, traced, Calling.lines]
  | encode command =>
    cases read : command.params with
    | error error => simp [Encoding.outcome_of_error read]
    | ok params => simp [Encoding.outcome_of_params read, Complete, read, Encoding.lines]
  | compare source =>
    cases read : source.params around.files with
    | error error => simp [Agreement.outcome_of_error read]
    | ok params => simp [Agreement.outcome_of_params read, Complete]
  | time command =>
    cases found : command.work around.machine around.files with
    | error error => simp [Timing.outcome_of_error found]
    | ok work => simp [Timing.outcome_of_work found, Complete, found]

end Command

end Blake2F
