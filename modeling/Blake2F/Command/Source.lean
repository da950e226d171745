import Blake2F.Payload
import Blake2F.Text.Hex

/-! Where a command finds its payload: in an argument, or in a file that takes the argument's place; and the
parameters that engines are tried on, which are those of a payload, or else of a sample. -/

namespace Blake2F

/-- What stands at a path. -/
inductive PathState where
  /-- Nothing. -/
  | missing
  /-- A directory. -/
  | directory
  /-- Something that the system refuses to read, for a reason of its own. -/
  | unreadable (reason : String)
  /-- A file that can be read. -/
  | file (content : ByteArray)

/-- Why no payload can be read. -/
inductive SourceError where
  /-- Nothing stands at the path. -/
  | pathNotExists
  /-- Neither an argument nor a path is given. -/
  | missingPayload
  /-- The text is no hexadecimal text. -/
  | invalidHex
  /-- The system cannot read what stands at the path. -/
  | io (reason : String)
  deriving DecidableEq, Repr

/-- The wording of each error. -/
def SourceError.message : SourceError → String
  | pathNotExists => "The specified path does not exist"
  | missingPayload => "No payload given"
  | invalidHex => "Invalid hex string"
  | io reason => reason

/-- The text that stands at a path. -/
def PathState.text : PathState → Except SourceError String
  | missing => .error .pathNotExists
  | directory => .error (.io "Is a directory (os error 21)")
  | unreadable reason => .error (.io reason)
  | file content =>
    match String.fromUTF8? content with
    | some text => .ok text
    | none => .error (.io "stream did not contain valid UTF-8")

/-- Where the payload of a command is looked for. -/
structure Source where
  /-- The payload as an argument. -/
  text : Option String := none
  /-- The path of a file with the payload. -/
  path : Option String := none
  deriving DecidableEq, Repr

namespace Source

/-- The bytes of the payload, if any is given; a path goes before an argument, and the length is left open. -/
def read (files : String → PathState) (source : Source) : Except SourceError (Option Bytes) := do
  -- The argument is not even looked at when there is a path.
  let text ← match source.path, source.text with
    | some path, _ => some <$> (files path).text
    | none, text => .ok text
  match text with
  | none => return none
  | some text =>
    match Hex.parse? text with
    | some bytes => return some bytes
    | none => .error .invalidHex

end Source

/-- The parameters to try engines on when none are given: twelve rounds over the final block "abc". -/
def Params.sample : Params where
  rounds := 12
  state := #v[0x6a09e667f2bdc948, 0xbb67ae8584caa73b, 0x3c6ef372fe94f82b, 0xa54ff53a5f1d36f1,
    0x510e527fade682d1, 0x9b05688c2b3e6c1f, 0x1f83d9abfb41bd6b, 0x5be0cd19137e2179]
  block := #v[(0x61 : UInt8), 0x62, 0x63] ++ Vector.replicate 125 (0 : UInt8)
  counter := ⟨3, 0⟩
  final := true

/-- Why no parameters can be read for a comparison or a timing. -/
inductive SampleError where
  /-- There is no payload to read. -/
  | source (error : SourceError)
  /-- The payload is refused. -/
  | payload (error : CallError)
  deriving DecidableEq, Repr

/-- The wording of each error. -/
def SampleError.message : SampleError → String
  | source error => error.message
  | payload error => "Invalid payload: " ++ error.message

/-- The parameters to try engines on; the sample takes the place of a payload that is not given. -/
def Source.params (files : String → PathState) (source : Source) : Except SampleError Params := do
  -- The sample is used for want of any payload, never in place of a bad one.
  let given ← (source.read files).mapError .source
  (Payload.decodeBytes (given.getD Params.sample.encode.toList) .lenient).mapError .payload

end Blake2F
