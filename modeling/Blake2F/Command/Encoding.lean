import Blake2F.Payload
import Blake2F.Log

/-! The command that puts a payload together from its fields and prints it. -/

namespace Blake2F

/-- What the command is given. -/
structure Encoding where
  /-- The number of rounds. -/
  rounds : UInt32 := 12
  /-- The text of the chaining state; without one its bytes are zeros. -/
  state : Option String := none
  /-- The text of the message block, or of its beginning; zeros fill the rest. -/
  block : Option String := none
  /-- The low word of the counter. -/
  low : Word := 0
  /-- The high word of the counter. -/
  high : Word := 0
  /-- Whether the block is the final one. -/
  final : Bool := false
  /-- Whether the output of the compression is printed as well. -/
  compress : Bool := false
  deriving DecidableEq, Repr

/-- Why the command fails. -/
inductive EncodingError where
  /-- A text is no hexadecimal text. -/
  | invalidHex
  /-- The text of the chaining state does not hold 64 bytes. -/
  | stateLength (length : Nat)
  /-- The text of the message block holds more than 128 bytes. -/
  | blockLength (length : Nat)
  deriving DecidableEq, Repr

/-- The wording of each failure. -/
def EncodingError.message : EncodingError → String
  | invalidHex => "Invalid hex string"
  | stateLength length => "`h` must be 64 bytes, got " ++ length.repr
  | blockLength length => "`m` must be at most 128 bytes, got " ++ length.repr

/-- The message block that begins with the bytes given and goes on with zeros. -/
def Block.ofPart (part : Bytes) (within : part.length ≤ 128) : Block :=
  ⟨(part ++ List.replicate (128 - part.length) 0).toArray, by simp; omega⟩

namespace Encoding

/-- The chaining state of a text. -/
def readState (text : String) : Except EncodingError State :=
  match Hex.parse? text with
  | none => .error .invalidHex
  | some bytes =>
    match Bytes.toVector? 64 bytes with
    | none => .error (.stateLength bytes.length)
    | some bytes => .ok (State.decode bytes)

/-- The message block of a text. -/
def readBlock (text : String) : Except EncodingError Block :=
  match Hex.parse? text with
  | none => .error .invalidHex
  | some bytes =>
    if within : bytes.length ≤ 128 then .ok (Block.ofPart bytes within)
    else .error (.blockLength bytes.length)

/-- The parameters that the command puts together; the chaining state is read first. -/
def params (command : Encoding) : Except EncodingError Params := do
  -- Of two bad texts the one of the chaining state is reported.
  let state ← match command.state with
    | none => .ok (Vector.replicate 8 0)
    | some text => readState text
  let block ← match command.block with
    | none => .ok (Vector.replicate 128 0)
    | some text => readBlock text
  return {
    rounds := command.rounds
    state
    block
    counter := ⟨command.low, command.high⟩
    final := command.final }

/-- Runs the command. -/
def run (machine : Machine) (command : Encoding) : Session EncodingError Unit := do
  -- Every check is over before the first line is printed.
  let params ← Session.orFail id command.params
  Session.log [.encoded params.rounds params.final]
  Session.print (Hex.encode params.encode.toList)
  if command.compress then
    Session.print (Hex.encode (params.compress machine).toList)

end Encoding

end Blake2F
