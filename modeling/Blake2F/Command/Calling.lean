import Blake2F.Call
import Blake2F.Command.Source

/-! The command that calls with a payload and prints the output and the gas used. -/

namespace Blake2F

/-- What the command is given. -/
structure Calling where
  /-- Where the payload is looked for. -/
  source : Source := {}
  /-- The gas limit of the call. -/
  gasLimit : UInt64 := 0xffffffffffffffff
  /-- Whether a flag other than zero and one is refused. -/
  strict : Bool := false
  deriving DecidableEq, Repr

/-- Why the command fails. -/
inductive CallingError where
  /-- There is no payload to call with. -/
  | source (error : SourceError)
  /-- The call was refused. -/
  | call (error : CallError)
  deriving DecidableEq, Repr

/-- The wording of each failure. -/
def CallingError.message : CallingError → String
  | source error => error.message
  | call error => "Precompile failed: " ++ error.message

namespace Calling

/-- The policy that the command asks for. -/
def policy (command : Calling) : FlagPolicy := if command.strict then .strict else .lenient

/-- Runs the command. -/
def run (machine : Machine) (files : String → PathState) (command : Calling) :
    Session CallingError Unit := do
  -- Without a payload there is nothing to log.
  let given ← Session.orFail .source (command.source.read files)
  let payload ← Session.orFail .source (given.elim (.error .missingPayload) .ok)
  Session.log [.calling payload.length command.policy command.gasLimit]
  let traced := Call.run machine command.policy payload command.gasLimit
  Session.log traced.events
  -- Nothing is printed before the call has gone well.
  let output ← Session.orFail .call traced.value
  Session.log [.succeeded]
  Session.print (Hex.encode output.bytes.toList)
  Session.print ("gas used: " ++ output.gasUsed.toNat.repr)

end Calling

end Blake2F
