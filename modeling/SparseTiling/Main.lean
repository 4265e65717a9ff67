import SparseTiling.CommandLine.Run

/-!
# The program

Connects runs to the files and streams of the machine.
-/

namespace SparseTiling.CommandLine

/-- The fault behind an error of the machine. -/
def FileFault.ofError : IO.Error → FileFault
  | .noFileOrDirectory .. => .missing
  | .permissionDenied .. => .denied
  | .inappropriateType _ code _ => if code = 20 then .inFile else .isFolder
  | .invalidArgument _ 36 _ => .longName
  | e => .other (toString e)

/-- A result, or the fault of an action that failed. -/
def caught {α : Type} (action : IO α) : IO (Except FileFault α) := do
  try return .ok (← action)
  catch e => return .error (.ofError e)

/-- The files of the machine. -/
def disk : Files IO where
  read path := do
    match ← caught (IO.FS.readBinFile path) with
    | .error fault => return .error fault
    | .ok bytes =>
      match String.fromUTF8? bytes with
      | some text => return .ok text
      | none => return .error .encoding
  write path text := caught (IO.FS.writeFile path text)

end SparseTiling.CommandLine

/-- Runs the program. -/
def main (arguments : List String) : IO UInt32 := do
  let outcome ← SparseTiling.CommandLine.run SparseTiling.CommandLine.disk arguments
  (← IO.getStderr).putStr outcome.errors
  (← IO.getStdout).putStr outcome.output
  return outcome.exit
