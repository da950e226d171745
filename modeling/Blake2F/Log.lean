import Blake2F.Engine
import Blake2F.FlagPolicy
import Blake2F.Text.Hex

/-! The events that calls and commands leave in the log, the line that each is written as, and all that a command
prints and logs while it runs. -/

namespace Blake2F

/-- How much an event matters. -/
inductive Level where
  /-- For following single calls. -/
  | trace
  /-- For following single commands. -/
  | debug
  /-- Something was achieved. -/
  | info
  /-- Something is wrong. -/
  | warn
  deriving DecidableEq, Repr

/-- The word that opens the line of an event. -/
def Level.name : Level → String
  | trace => "TRACE"
  | debug => "DEBUG"
  | info => "INFO"
  | warn => "WARN"

/-- What can be logged. -/
inductive Event where
  /-- A call was refused for the length of its payload. -/
  | wrongLength (length : Nat)
  /-- A call was refused because its rounds cost more than the gas limit. -/
  | outOfGas (rounds : UInt32) (gasLimit : UInt64)
  /-- A call was refused for the byte that marks the final block. -/
  | wrongFlag (flag : UInt8)
  /-- A call has compressed. -/
  | compressed (rounds : UInt32) (gasUsed : UInt64)
  /-- A command is about to make a call. -/
  | calling (length : Nat) (policy : FlagPolicy) (gasLimit : UInt64)
  /-- The call of a command went well. -/
  | succeeded
  /-- A command has encoded parameters. -/
  | encoded (rounds : UInt32) (final : Bool)
  /-- All available engines gave the same output. -/
  | agreed (output : Bytes)
  /-- An engine gave another output than the portable one. -/
  | mismatch (engine : Engine) (output : Bytes)
  /-- The timing of an engine is over. -/
  | timed (engine : Engine) (rounds : UInt32) (iterations : UInt64)
  deriving DecidableEq, Repr

namespace Event

/-- How much each event matters. -/
def level : Event → Level
  | wrongLength .. | outOfGas .. | wrongFlag .. | compressed .. => .trace
  | calling .. | encoded .. => .debug
  | succeeded | agreed .. | timed .. => .info
  | mismatch .. => .warn

/-- What each event says. -/
def message : Event → String
  | wrongLength .. => "blake2f: wrong input length"
  | outOfGas .. => "blake2f: out of gas"
  | wrongFlag .. => "blake2f: wrong final block flag"
  | compressed .. => "blake2f"
  | calling .. => "running blake2f"
  | succeeded => "blake2f succeeded"
  | encoded .. => "encoded payload"
  | agreed .. => "all available backends agree"
  | mismatch .. => "backend mismatch"
  | timed .. => "bench done"

/-- The truth value as it is written in a line. -/
def truth (value : Bool) : String := if value then "true" else "false"

/-- The names and values that each event carries. -/
def fields : Event → List (String × String)
  | wrongLength length => [("len", length.repr)]
  | outOfGas rounds gasLimit =>
    [("rounds", rounds.toNat.repr), ("gas_limit", gasLimit.toNat.repr)]
  | wrongFlag flag => [("flag", flag.toNat.repr)]
  | compressed rounds gasUsed =>
    [("rounds", rounds.toNat.repr), ("gas_used", gasUsed.toNat.repr)]
  | calling length policy gasLimit =>
    [("len", length.repr), ("policy", policy.name), ("gas_limit", gasLimit.toNat.repr)]
  | succeeded => []
  | encoded rounds final => [("rounds", rounds.toNat.repr), ("f", truth final)]
  | agreed output => [("output", Hex.encode output)]
  | mismatch engine output => [("backend", engine.name), ("output", Hex.encode output)]
  | timed engine rounds iterations =>
    [("backend", engine.name), ("rounds", rounds.toNat.repr), ("iterations", iterations.toNat.repr)]

/-- The line of an event: its level, what it says, and its fields, with single blanks between. -/
def line (event : Event) : String :=
  -- An event without fields ends with what it says.
  " ".intercalate (event.level.name :: event.message ::
    event.fields.map fun field => field.1 ++ "=" ++ field.2)

end Event

/-- The output of a command so far. -/
structure Transcript where
  /-- The lines printed. -/
  stdout : List String := []
  /-- The events logged. -/
  log : List Event := []
  deriving DecidableEq, Repr

/-- A run that prints and logs as it goes and may fail on the way; what it has printed by then stays printed. -/
abbrev Session (ε : Type) := ExceptT ε (StateM Transcript)

namespace Session

variable {ε : Type}

/-- Prints a line. -/
def print (line : String) : Session ε Unit :=
  modify fun transcript => { transcript with stdout := transcript.stdout ++ [line] }

/-- Logs events. -/
def log (events : List Event) : Session ε Unit :=
  modify fun transcript => { transcript with log := transcript.log ++ events }

/-- Goes on with a value, or fails with the error found instead. -/
def orFail {δ α : Type} (wrap : δ → ε) : Except δ α → Session ε α
  | .ok value => pure value
  | .error error => throw (wrap error)

/-- How a run ends, and all that it leaves behind. -/
def outcome {α : Type} (session : Session ε α) : Except ε α × Transcript := session.run.run {}

end Session

end Blake2F
