-- SUMMARY: The program: reads the files that its arguments name, and prints the outcome of the run.
import EpcTag.CommandLine.Run

/-!
# The program

The run itself is a function of the arguments and the files. What is left for the
program is to read the files beforehand and to write the outcome.
-/

namespace EpcTag.CommandLine

/-- What stands at a path of the file system. -/
def readEntry (path : Text) : IO (Text × FileEntry) := do
  try
    let content ← IO.FS.readFile (String.ofList path)
    return (path, .file content.toList)
  catch
    | .noFileOrDirectory .. => return (path, .missing)
    | _ => return (path, .directory)

/-- The files that a command line may look at. -/
def readFiles (arguments : List Text) : IO Files := do
  match splitCommandLine arguments with
  | .error _ => return ⟨fun _ => .missing, []⟩
  | .ok (options, _) =>
    let entries ← options.paths.eraseDups.mapM readEntry
    let typed ← (if options.prefixFeed = some Files.typedIn then do (← IO.getStdin).readToEnd
      else pure "")
    return ⟨fun path => (entries.lookup path).getD .missing, typed.toList⟩

/-- Writes an outcome, and answers its exit code. -/
def write (outcome : Outcome) : IO UInt32 := do
  if let some (path, added) := outcome.logged then
    let file ← IO.FS.Handle.mk (String.ofList path) .append
    file.putStr (String.ofList added)
  IO.print (String.ofList outcome.output)
  IO.eprint (String.ofList outcome.errors)
  match outcome.ending with
  | .misused cause => IO.eprintln (String.ofList (Text.join ["Error: ", cause.message]))
  | .stopped fault => IO.eprintln (String.ofList (Text.join ["Fault: ", fault.message?.getD []]))
  | _ => pure ()
  return outcome.ending.code.toUInt32

end EpcTag.CommandLine

open EpcTag EpcTag.CommandLine in
def main (arguments : List String) : IO UInt32 := do
  let arguments := arguments.map String.toList
  write (run (← readFiles arguments) arguments)
