import Blake2F.Command.Agreement
import Blake2F.Text.Decimal

/-! The command that times many compressions of one payload. -/

namespace Blake2F

/-- What the command is given. -/
structure Timing where
  /-- Where the payload is looked for. -/
  source : Source := {}
  /-- How many compressions are timed. -/
  iterations : UInt64 := 10000
  /-- The engine to time; without one it is the fastest of the machine. -/
  engine : Option Engine := none
  deriving DecidableEq, Repr

/-- Why the command fails. -/
inductive TimingError where
  /-- There are no parameters to compress. -/
  | sample (error : SampleError)
  /-- The machine lacks the engine. -/
  | unavailable (engine : Engine)
  deriving DecidableEq, Repr

/-- The wording of each failure. -/
def TimingError.message : TimingError → String
  | sample error => error.message
  | unavailable engine => "Backend `" ++ engine.name ++ "` is not available on this machine"

/-- The work whose time is taken. -/
structure TimedWork where
  /-- What is compressed. -/
  params : Params
  /-- The engine that compresses. -/
  engine : Engine
  deriving DecidableEq, Repr

namespace Timing

/-- The work that the command asks for. -/
def work (machine : Machine) (files : String → PathState) (command : Timing) :
    Except TimingError TimedWork := do
  -- A bad payload is reported even where the engine is missing too.
  let params ← (command.source.params files).mapError .sample
  let engine := command.engine.getD (Engine.detect machine)
  if engine.isAvailable machine then return ⟨params, engine⟩
  else .error (.unavailable engine)

/-- The time of one call, to the nearest nanosecond, given the time of all. -/
def perCall (iterations : UInt64) (elapsed : Nat) : Nat :=
  -- No calls at all take their time as one.
  let calls := max iterations.toNat 1
  (2 * elapsed + calls) / (2 * calls)

/-- The line about a time taken, given in nanoseconds. -/
def report (work : TimedWork) (iterations : UInt64) (elapsed : Nat) : String :=
  work.engine.name ++ ": " ++ iterations.toNat.repr ++ " calls of " ++
    work.params.rounds.toNat.repr ++ " rounds in " ++ Duration.text elapsed ++ " (" ++
    Duration.text (perCall iterations elapsed) ++ " per call)"

/-- Runs the command, given how many nanoseconds its work has taken. -/
def run (machine : Machine) (files : String → PathState) (elapsed : Nat) (command : Timing) :
    Session TimingError Unit := do
  let work ← Session.orFail id (command.work machine files)
  Session.log [.timed work.engine work.params.rounds command.iterations]
  Session.print (report work command.iterations elapsed)

end Timing

end Blake2F
