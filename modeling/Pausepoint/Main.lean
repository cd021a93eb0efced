import Pausepoint.Cli.Run

/-!
# The program

Reads the arguments, the environment and files, runs the script, and prints the lines and the fault of
the run. A run asks for resources while it goes on; one that ends because a resource was never looked
for is begun anew with that file, and only the last run is printed.
-/

namespace Pausepoint.Cli

/-- The files that were read, or could not be, by path. -/
abbrev Shelf := List (String × Except ReadFault String)

/-- What a shelf has at a path. -/
def Shelf.read (shelf : Shelf) : Reader :=
  fun path => (shelf.lookup path).getD (.error .notFound)

/-- The path that the run wanted and that was never looked for. -/
def missingPath? (a : Arguments) (shelf : Shelf) (r : RunResult) : Option String :=
  match r.fault with
  | some (.script (.unknownResource resource)) =>
      let path := joinPath (parentPath a.script) resource
      if (shelf.lookup path).isSome then none else some path
  | _ => none

/-- The text of a file on disk. -/
def readFile (path : String) : IO (Except ReadFault String) := do
  if let some fault := pathFault? path then
    return .error fault
  try
    let bytes ← IO.FS.readBinFile path
    return match String.fromUTF8? bytes with
      | some text => .ok text
      | none => .error .notText
  catch
    | .permissionDenied .. => return .error .denied
    | .inappropriateType _ code _ => return .error (if code = 21 then .isDirectory else .notDirectory)
    | .invalidArgument _ 36 _ => return .error .tooLong
    | _ => return .error .notFound

/-- Puts files on a shelf. -/
def fetch (shelf : Shelf) (paths : List String) : IO Shelf :=
  paths.foldlM (fun shelf path => return (path, ← readFile path) :: shelf) shelf

/-- Runs the script, and runs it again as long as it misses a file that was never looked for, at most so
many times. -/
def runOnDisk (a : Arguments) (environment : Option String) : Nat → Shelf → IO RunResult
  | 0, shelf => return a.run shelf.read environment
  | limit + 1, shelf => do
      let r := a.run shelf.read environment
      match missingPath? a shelf r with
      | none => return r
      | some path => runOnDisk a environment limit (← fetch shelf [path])

/-- More files than any script includes. -/
def fileLimit : Nat := 1000000000

/-- Prints what a run leaves behind; gives the exit code. -/
def report (r : RunResult) : IO UInt32 := do
  for warning in r.warningText? do
    IO.eprintln warning
  for line in r.lines do
    IO.println line.document.text
  for fault in r.fault do
    IO.eprintln fault.text
  return r.exitCode.toUInt32

end Pausepoint.Cli

open Pausepoint.Cli in
/-- Does what the command line asks for. -/
def main (args : List String) : IO UInt32 := do
  match Invocation.parse args with
  | .error fault =>
      IO.eprintln ("error: " ++ fault.message)
      return usageExitCode.toUInt32
  | .ok .help =>
      for line in usage do
        IO.println line
      return 0
  | .ok .version =>
      IO.println versionText
      return 0
  | .ok (.run a) =>
      let environment ← IO.getEnv "SCRIPT_DEBUG_CONFIG"
      let shelf ← fetch [] (a.script :: (a.settings.or environment).toList)
      report (← runOnDisk a environment fileLimit shelf)
