import UnitFile.CommandLine.Run
/-!
# The command

Reads the files that a run looks at, runs, and prints.
-/

namespace UnitFile

/-- The contents of a file, if it can be read. -/
def readFile? (path : String) : IO (Option ByteArray) := do
  try
    return some (← IO.FS.readBinFile path)
  catch _ =>
    return none

end UnitFile

open UnitFile in
/-- Inspects a unit file as the arguments say. -/
def main (args : List String) : IO UInt32 := do
  let paths := CommandLine.neededFiles args
  let files ← paths.mapM fun path => do return (path, ← readFile? path)
  let outcome := CommandLine.run (fun path => (files.lookup path).join) args
  IO.print outcome.output
  if let some message := outcome.failure then
    IO.eprintln s!"Error: {message}"
  if outcome.code = 2 then
    IO.eprint CommandLine.usageText
  return outcome.code.toUInt32
