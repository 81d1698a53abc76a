import CrossShade.CommandLine

/-!
The program: the command line on the files and streams of the machine it runs on.
-/

namespace CrossShade

/-- Why the machine could not read or write a file. The system's number for the cause comes
as it is or negated. -/
def FileFault.ofError : IO.Error → FileFault
  | .noFileOrDirectory .. => .notFound
  | .inappropriateType _ code _ =>
      if code = 20 ∨ code + 20 = 0 then .notADirectory else .isADirectory
  | error => .other error.toString.toList

/-- The services of the machine. Notes go to the stream for complaints. -/
def machine : Host IO where
  readFile path := do
    try
      let bytes ← IO.FS.readBinFile (String.ofList path)
      return .ok bytes.toList
    catch error => return .error (.ofError error)
  writeFile path contents := do
    try
      IO.FS.writeBinFile (String.ofList path) ⟨contents.toArray⟩
      return .ok ()
    catch error => return .error (.ofError error)
  print text := IO.print (String.ofList text)
  complain text := IO.eprint (String.ofList text)
  note entry := IO.eprintln (String.ofList entry.render)

end CrossShade

/-- Run the command line; the variable `CROSSSHADE_DEBUG`, whatever its value, turns the
debug notes on. -/
def main (arguments : List String) : IO UInt32 := do
  let debugging := (← IO.getEnv "CROSSSHADE_DEBUG").isSome
  let status ← CrossShade.CommandLine.run CrossShade.machine debugging
    (arguments.map String.toList)
  return status.toUInt32
