import SlotC.CommandLine

/-! The program `stackcc`. -/

open SlotC

/-- Answers the arguments. -/
def main (arguments : List String) : IO UInt32 := do
  let response := CommandLine.respond arguments
  IO.print response.stdout
  IO.eprint response.stderr
  return response.exitCode.toUInt32
