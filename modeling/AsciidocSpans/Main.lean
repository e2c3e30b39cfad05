import AsciidocSpans.CommandLine.Run

/-!
The program. It reads the files that its arguments name, runs, and writes what the run comes to.
-/

set_option autoImplicit false
set_option relaxedAutoImplicit false

open AsciidocSpans

/-- What an open path holds, with the path. A directory can be opened and not be read; its path
gets a slash. -/
def readOpened (path : Text) (handle : IO.FS.Handle) : IO (Text × Text) := do
  try
    return (path, (← handle.readToEnd).toList)
  catch
    | .inappropriateType .. => return (path ++ ['/'], [])
    | error => throw error

/-- The file or the directory at a path, if there is one. -/
def fileAt (path : Text) : IO (Option (Text × Text)) := do
  try
    return some (← readOpened path (← IO.FS.Handle.mk (String.ofList path) .read))
  catch
    | .noFileOrDirectory .. => return none
    | error => throw error

/-- Add text to the end of a file. -/
def appendTo (path text : Text) : IO Unit := do
  let handle ← IO.FS.Handle.mk (String.ofList path) .append
  handle.putStr (String.ofList text)

/-- The exit code of a run, with a line on standard error if an error ended it. -/
def exitCode : Except CommandLine.Failure Nat → IO UInt32
  | .ok code => return code.toUInt32
  | .error failure => do
    IO.eprintln (failure.message Yaml.ReadError.message)
    return 1

def main (args : List String) : IO UInt32 := do
  let arguments := args.map String.toList
  let files ← (CommandLine.pathsRead arguments).filterMapM fileAt
  let outcome := CommandLine.run arguments files
  IO.print (String.ofList outcome.output)
  IO.eprint (String.ofList outcome.diagnostics)
  match outcome.log with
  | some (path, lines) => appendTo path lines
  | none => pure ()
  exitCode outcome.result
