import Blake2F.CommandLine

/-! The program: it looks at its surroundings, runs the command of its arguments, and writes what comes of it. -/

namespace Blake2F

namespace Program

/-- What to say about the words that the program takes. -/
def usage : List String :=
  ["Usage: blake2f <COMMAND>",
    "",
    "Commands:",
    "  run [PAYLOAD] [--path P] [--gas-limit N] [--strict]",
    "  encode [--rounds N] [--h HEX] [--m HEX] [--t0 N] [--t1 N] [--final] [--compress]",
    "  backends [PAYLOAD] [--path P]",
    "  bench [PAYLOAD] [--path P] [--iterations N] [--backend B]",
    "  help [COMMAND]"]

/-- The machine at hand; rows of four lanes are plain words here, so that every machine has them. -/
def machine : Machine := { avx2 := true }

/-- Whether a path can be followed to something, be it readable or not. -/
def leadsSomewhere (path : String) : IO Bool := do
  try
    let _ ← IO.FS.realPath path
    return true
  catch _ => return false

/-- What stands at a path. -/
def look (path : String) : IO PathState := do
  -- A path that cannot be followed to its end counts as missing, whatever stands in the way.
  unless ← leadsSomewhere path do return .missing
  try
    return .file (← IO.FS.readBinFile path)
  catch error =>
    match error with
    | .inappropriateType _ 21 _ => return .directory
    | .permissionDenied .. => return .unreadable "Permission denied (os error 13)"
    | .noFileOrDirectory .. => return .unreadable "No such file or directory (os error 2)"
    | other => return .unreadable (toString other)

/-- The path that a command reads. -/
def pathOf : Command → Option String
  | .call command => command.source.path
  | .compare source => source.path
  | .time command => command.source.path
  | .encode _ => none

/-- Does the work of a timing, and gives the nanoseconds that it took. -/
def perform (work : TimedWork) (iterations : UInt64) : IO Nat := do
  let last ← IO.mkRef (Vector.replicate 64 (0 : UInt8))
  let start ← IO.monoNanosNow
  for _ in [0:iterations.toNat] do
    last.set (work.params.compressWith machine work.engine)
  return (← IO.monoNanosNow) - start

/-- Looks at everything that a command asks about. -/
def surroundings (command : Command) : IO Surroundings := do
  let state ← match pathOf command with
    | none => pure .missing
    | some path => look path
  let files := fun _ => state
  let elapsed ← match command with
    | .time timing =>
      match timing.work machine files with
      | .ok work => perform work timing.iterations
      | .error _ => pure 0
    | _ => pure 0
  return ⟨machine, files, elapsed⟩

/-- Runs a command and writes its lines, its events and its failure. -/
def execute (command : Command) : IO UInt32 := do
  let (result, transcript) := Session.outcome (command.run (← surroundings command))
  for event in transcript.log do
    IO.eprintln event.line
  for line in transcript.stdout do
    IO.println line
  match result with
  | .ok _ => return 0
  | .error error =>
    IO.eprintln ("Error: " ++ error.message)
    return 1

end Program

end Blake2F

/-- Runs the command of the arguments; help that was asked for is no failure. -/
def main (arguments : List String) : IO UInt32 := do
  match Blake2F.CommandLine.parse arguments with
  | .ok command => Blake2F.Program.execute command
  | .error .help =>
    Blake2F.Program.usage.forM fun line => IO.println line
    return 0
  | .error error =>
    IO.eprintln ("error: " ++ error.message)
    Blake2F.Program.usage.forM fun line => IO.eprintln line
    return 2
