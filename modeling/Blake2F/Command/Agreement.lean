import Blake2F.Command.Source
import Blake2F.Log

/-! The command that lists the engines and holds the output of each against that of the portable one. -/

namespace Blake2F

/-- Why the command fails. -/
inductive AgreementError where
  /-- There are no parameters to compare on. -/
  | sample (error : SampleError)
  /-- An engine gives another output than the portable one. -/
  | mismatch (engine : Engine)
  deriving DecidableEq, Repr

/-- The wording of each failure. -/
def AgreementError.message : AgreementError → String
  | sample error => error.message
  | mismatch engine => "Backend `" ++ engine.name ++ "` disagrees with the portable backend"

namespace Agreement

/-- Compares one engine, and prints a line about it unless it gives another output. -/
def check (machine : Machine) (params : Params) (expected : Vector UInt8 64) (engine : Engine) :
    Session AgreementError Unit := do
  -- An engine that is missing would only compare the portable one with itself.
  if engine.isAvailable machine then
    let output := params.compressWith machine engine
    if output = expected then
      let marker := if engine = Engine.detect machine then " (detected)" else ""
      Session.print (engine.name ++ " ok" ++ marker)
    else
      Session.log [.mismatch engine output.toList]
      throw (.mismatch engine)
  else
    Session.print (engine.name ++ " unavailable")

/-- Runs the command. -/
def run (machine : Machine) (files : String → PathState) (source : Source) :
    Session AgreementError Unit := do
  -- The lines are printed one by one, as each comparison ends.
  let params ← Session.orFail .sample (source.params files)
  let expected := params.compressWith machine .portable
  Engine.all.forM (check machine params expected)
  Session.log [.agreed expected.toList]

end Agreement

end Blake2F
