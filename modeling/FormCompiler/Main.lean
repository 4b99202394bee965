import FormCompiler.CommandLine.Run
import Std.Time.DateTime.Timestamp

/-!
# FormCompiler.Main

The program: reads the files that an invocation names, runs it, and carries
out what is left to do.
-/

namespace FormCompiler

/-- The fault behind an error of the system. -/
def FileFault.ofIOError : IO.Error → FileFault
  | .noFileOrDirectory _ _ _ => .notFound
  | .inappropriateType _ code details | .permissionDenied _ code details
  | .invalidArgument _ code details | .resourceExhausted _ code details
  | .noSuchThing _ code details | .otherError code details =>
    .other (details ++ " (os error " ++ toString code ++ ")")
  | error => .other (toString error)

def readFileBytes (path : String) : IO (Except FileFault ByteArray) :=
  try
    return .ok (← IO.FS.readBinFile path)
  catch error => return .error (.ofIOError error)

def writeFileText (path text : String) : IO (Except FileFault Unit) :=
  try
    IO.FS.writeFile path text
    return .ok ()
  catch error => return .error (.ofIOError error)

/-- The instant of the clock. -/
def clock : IO Timestamp := do
  let now ← Std.Time.Timestamp.now
  let nanoseconds := now.toNanosecondsSinceUnixEpoch.val
  return (Timestamp.ofUnixSeconds? (nanoseconds / 1000000000) (nanoseconds % 1000000000).toNat).getD
    .unixEpoch

/-- Prints a report and gives its exit code. -/
def CommandLine.Report.print (report : CommandLine.Report) : IO UInt32 := do
  (← IO.getStdout).putStr report.stdout
  (← IO.getStderr).putStr report.stderr
  return report.code.toUInt32

/-- Carries out what is left of a run. -/
def CommandLine.Outcome.perform : CommandLine.Outcome → IO UInt32
  | .finish report => report.print
  | .write path text report => do (report (← writeFileText path text)).print

/-- Runs an invocation over the files that it names. -/
def CommandLine.Invocation.perform (invocation : CommandLine.Invocation) : IO UInt32 := do
  let files ← invocation.command.inputs.mapM fun path => do return (path, ← readFileBytes path)
  let read (path : String) := (files.lookup path).getD (.error .notFound)
  (invocation.run read (← clock)).perform

end FormCompiler

def main (arguments : List String) : IO UInt32 :=
  match FormCompiler.CommandLine.Invocation.ofArguments arguments with
  | .error stop => stop.report.print
  | .ok invocation => invocation.perform
