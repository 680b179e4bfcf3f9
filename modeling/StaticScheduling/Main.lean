import StaticScheduling.CommandLine.Program

/-!
# The program

Reads and writes the files that a command line names.
-/

open StaticScheduling

def fileFault : IO.Error → FileFault
  | .noFileOrDirectory .. => .notFound
  | error => .system (toString error)

def readFile (path : String) : IO (Except FileFault ByteArray) := do
  try
    let content ← IO.FS.readBinFile path
    return .ok content
  catch error =>
    return .error (fileFault error)

def perform : CommandOutput → IO (Except CommandError Unit)
  | .content (some path) text => do
    try
      IO.FS.writeFile path text
      return .ok ()
    catch error =>
      return .error (.unwritable path (fileFault error))
  | output => do
    IO.print (Program.printed output)
    return .ok ()

/-- Runs a command and answers the exit code. -/
def run (command : Command) : IO UInt32 := do
  let content ← readFile command.input
  let result ← match command.evaluate content with
    | .ok output => perform output
    | .error error => pure (.error error)
  match result with
  | .ok () => return 0
  | .error error =>
    IO.eprint error.text
    return 1

def main (arguments : List String) : IO UInt32 := do
  match Program.invocation arguments with
  | .finish exitCode output =>
    IO.print output
    return exitCode
  | .run command => run command
