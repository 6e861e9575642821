import SettingsForge.CommandLine.Run

set_option autoImplicit false

/-! # The command line program

Answers go to standard output, the journal and errors to standard error. -/

open SettingsForge in
def main (args : List String) : IO UInt32 := do
  let answer := CommandLine.run args
  for entry in answer.journal do
    IO.eprintln entry.line
  IO.print answer.outcome.output
  match answer.outcome with
  | .printed _ => pure ()
  | .failed _ => IO.eprintln (answer.outcome.errorLine?.getD "")
  | .misused => IO.eprintln "usage: [--log-profile PROFILE] shapes | defaults | reconcile"
  return answer.outcome.code.toUInt32
