import OpcodeRegistry.Command.Run

/-! # The command line

Reads the one file that a command may need, runs the program and writes its report.
-/

namespace OpcodeRegistry

/-- The system's code of the fault that a path leads to a directory. -/
def directoryCode : UInt32 := 21

/-- The contents of a file, or why there are none. -/
def readFile (path : String) : IO (Except FileFault ByteArray) := do
  try
    return .ok (← IO.FS.readBinFile path)
  catch
    | .inappropriateType _ code _ =>
      return .error (if code = directoryCode then .isADirectory else .notADirectory)
    | .noFileOrDirectory .. => return .error .notFound
    -- Nothing but its length makes a path an invalid argument.
    | .invalidArgument .. => return .error .nameTooLong
    | e => throw e

end OpcodeRegistry

open OpcodeRegistry in
/-- Runs the program on its arguments. -/
def main (words : List String) : IO UInt32 := do
  let directives ← IO.getEnv "RUST_LOG"
  let file? := (Command.ofWords words).toOption.bind Command.source?
  let contents ←
    match file? with
    | some path => readFile path
    | none => pure (.error .notFound)
  let report := Program.run directives (fun _ => contents) words
  IO.print report.output
  for text in report.errors do
    IO.eprintln text
  return report.status
