import Blake2F.Command.Calling
import Blake2F.Command.Encoding
import Blake2F.Command.Timing

/-! The four commands, and what they leave behind in their surroundings. -/

namespace Blake2F

/-- A command with all that it is given. -/
inductive Command where
  /-- Call with a payload. -/
  | call (command : Calling)
  /-- Put a payload together. -/
  | encode (command : Encoding)
  /-- Compare the engines. -/
  | compare (source : Source)
  /-- Time an engine. -/
  | time (command : Timing)
  deriving DecidableEq, Repr

/-- Why a command fails. -/
inductive CommandError where
  /-- The call failed. -/
  | call (error : CallingError)
  /-- The payload could not be put together. -/
  | encode (error : EncodingError)
  /-- The comparison failed. -/
  | compare (error : AgreementError)
  /-- The timing failed. -/
  | time (error : TimingError)
  deriving DecidableEq, Repr

/-- The wording of each failure. -/
def CommandError.message : CommandError → String
  | call error => error.message
  | encode error => error.message
  | compare error => error.message
  | time error => error.message

/-- What a command finds around it. -/
structure Surroundings where
  /-- What the machine can run. -/
  machine : Machine
  /-- What stands at each path. -/
  files : String → PathState
  /-- How many nanoseconds the work of a timing takes. -/
  elapsed : Nat

/-- Runs a command. -/
def Command.run (around : Surroundings) : Command → Session CommandError Unit
  | call command => (command.run around.machine around.files).adapt .call
  | encode command => (command.run around.machine).adapt .encode
  | compare source => (Agreement.run around.machine around.files source).adapt .compare
  | time command => (command.run around.machine around.files around.elapsed).adapt .time

end Blake2F
