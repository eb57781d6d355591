import Sentential.CommandLine

/-! # The executable

Runs the command on the arguments of the process.
-/

def main (arguments : List String) : IO UInt32 := do
  let outcome := Sentential.CommandLine.run arguments
  IO.print outcome.stdout
  IO.eprint outcome.stderr
  return outcome.status.toUInt32
