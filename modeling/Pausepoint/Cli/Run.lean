import Pausepoint.Cli.Invocation
import Pausepoint.Cli.Watching
import Pausepoint.Config.Loading
import Pausepoint.Text.Blank

/-!
# A run from the command line

A script runs on one thread under a session of its own, whose stops the automatic controller answers.
Everything that is printed is a line with one document.

* `Arguments.settingsUnder` — the settings of a run, and why the defaults stand in for a file;
* `readBreakpoint` — a breakpoint from its text;
* `Arguments.prepare` — what precedes the script, with files given by a function from paths;
* `Arguments.run` — a whole run;
* `RunResult` — the warning, the lines, and how the run ended.

Settings that cannot be loaded are replaced by the defaults under a warning. Then the script is read and
the breakpoints are set, and only if all of that succeeds does anything run.
-/

namespace Pausepoint.Cli

open Pausepoint.Text

/-- How files are read. -/
abbrev Reader := String → Except ReadFault String

/-! ### What is printed -/

/-- One line of the output. -/
inductive Line
  /-- A callback of the session. -/
  | event (c : Callback)
  /-- A stop that was answered. -/
  | stopped (s : ShownStop)
  /-- A line that the script printed. -/
  | printed (text : String)

def Line.document : Line → Document
  | .event c => c.document
  | .stopped s => s.document
  | .printed text => .object [("output", .string text)]

/-- Why a run failed. -/
inductive RunFault
  /-- The script cannot be read. -/
  | unreadableScript (path : String) (cause : ReadFault)
  /-- The line of a breakpoint is no number. -/
  | breakpointLine (spec : String) (cause : NumeralFault)
  /-- The session refused a call. -/
  | refused (cause : Refusal)
  | script (fault : Language.ScriptFault)

def RunFault.message : RunFault → String
  | .unreadableScript path _ => s!"failed to read {path}"
  | .breakpointLine spec _ => s!"invalid breakpoint line in `{spec}`"
  | .refused cause => cause.message
  | .script fault => fault.message

/-- The wording of what lies behind a fault. -/
def RunFault.cause? : RunFault → Option String
  | .unreadableScript _ cause => some cause.message
  | .breakpointLine _ cause => some cause.message
  | .refused _ | .script _ => none

/-- A fault with what lies behind it. -/
def RunFault.text (f : RunFault) : String :=
  match f.cause? with
  | some cause => "Error: " ++ f.message ++ "\n\nCaused by:\n    " ++ cause
  | none => "Error: " ++ f.message

/-- What a run leaves behind. -/
structure RunResult where
  /-- Why the settings are the defaults although a file was named, with its path. -/
  warning : Option (String × LoadFault) := none
  /-- The lines of the output. -/
  lines : List Line := []
  /-- Why the run failed, if it did. -/
  fault : Option RunFault := none
  /-- Does it come to an end? Not while its script is held and nobody lets it go on. -/
  ends : Bool := true

/-- The warning on the error stream. -/
def RunResult.warningText? (r : RunResult) : Option String :=
  r.warning.map fun (path, fault) =>
    s!"{programName}: failed to load config from {path}: {fault.message}; continuing with defaults"

def RunResult.exitCode (r : RunResult) : Nat :=
  if r.fault.isSome then 1 else 0

/-- The exit code after a fault in the command line. -/
def usageExitCode : Nat := 2

/-! ### Preparation -/

/-- The settings for a run, from the file that is named by the arguments or else by the environment. -/
def Arguments.settingsUnder (a : Arguments) (read : Reader) (environment : Option String) :
    Settings × Option (String × LoadFault) :=
  let (settings, warning) : Settings × Option (String × LoadFault) :=
    match a.settings.or environment with
    | none => ({}, none)
    | some path =>
        match Settings.load read path with
        | .ok settings => (settings, none)
        | .error fault => ({}, some (path, fault))
  let debugger := settings.debugger
  ({ settings with debugger.suspendOnStartup := a.suspendOnStartup || debugger.suspendOnStartup }, warning)

/-- The largest line that can be named: it has 32 bits. -/
def maxLine : Nat := 4294967295

/-- A breakpoint from its text: a line of the root script, or a resource and a line after the last
colon. -/
def readBreakpoint (root spec : String) : Except RunFault Breakpoint :=
  let (resource, line) := match splitAtLastChar ':' spec.toList with
    | some (resource, line) => (String.ofList resource, line)
    | none => (root, spec.toList)
  match readUnsigned maxLine (trim line) with
  | .ok line => .ok { resource, line }
  | .error cause => .error (.breakpointLine spec cause)

/-- Reads and sets breakpoints in order, up to the first that is at fault. -/
def setBreakpoints (root : String) : List String → Session → Except RunFault Session
  | [], s => .ok s
  | spec :: rest, s =>
      match readBreakpoint root spec with
      | .error fault => .error fault
      | .ok b =>
          match s.addBreakpoint b with
          | (.error cause, _) => .error (.refused cause)
          | (.ok (), s) => setBreakpoints root rest s

/-! ### Runs -/

/-- The thread that runs the script. -/
def mainThread : ThreadId := ⟨1⟩

/-- An interpreter that finds resources below the directory of a script. -/
def interpreterAt (read : Reader) (path : String) : Language.Interpreter :=
  { files := fun resource => (read (joinPath (parentPath path) resource)).toOption }

/-- A world in which the interpreter is about to run the script. -/
def begin (read : Reader) (path source : String) (w : World) : World :=
  let (id, i) := (interpreterAt read path).takeScriptId
  w.beginScript mainThread i { id, source, resource := some path }

/-- The line that a sight is printed on. -/
def lineOf? : Sight → Option Line
  | .report (.callback c _ _) => some (.event c)
  | .stopped s => some (.stopped s)
  | .report _ => none

/-- The outcome of the script, in what is seen at its end. -/
def outcomeOf? : Sight → Option Language.Outcome
  | .report (.finished _ (.script outcome)) => some outcome
  | _ => none

/-- How a script may end a run: a request to end is no fault. -/
def faultOf? : Except Language.ScriptFault Unit → Option RunFault
  | .ok () | .error (.refused .terminated) => none
  | .error fault => some (.script fault)

/-- What a run leaves behind, from what its controller saw and how its loop ended, if it did. The lines that the
script printed come last. A refusal ends the run at once; otherwise it goes on until the script is over. -/
def conclude (warning : Option (String × LoadFault)) (sights : List Sight) (reply? : Option Reply) : RunResult :=
  let lines := sights.filterMap lineOf?
  match reply?, sights.findSome? outcomeOf? with
  | some (.error cause), _ => { warning, lines, fault := some (.refused cause) }
  | some (.ok ()), some (i, result) =>
      { warning, lines := lines ++ i.output.toList.map .printed, fault := faultOf? result }
  | some (.ok ()), none | none, _ => { warning, lines, ends := false }

/-- What a run leaves behind when nobody makes another step. -/
def leftBy (warning : Option (String × LoadFault)) (x : Watch) : RunResult :=
  conclude warning x.sights.reverse <| match x.attention with
    | .finished reply => some reply
    | _ => none

/-- How a run answers. -/
def Arguments.controller (a : Arguments) : Controller :=
  { mode := a.onStop, maxStops := a.maxStops }

/-- A run up to its script, with the warning; or what it leaves behind if it does not come so far. -/
def Arguments.prepare (a : Arguments) (read : Reader) (environment : Option String) :
    Except RunResult (Option (String × LoadFault) × Watch) :=
  let (settings, warning) := a.settingsUnder read environment
  match read a.script with
  | .error cause => .error { warning, fault := some (.unreadableScript a.script cause) }
  | .ok source =>
      let w := World.create settings.debugger true
      match setBreakpoints a.script a.breakpoints w.session with
      | .error fault => .error { warning, fault := some fault }
      | .ok session => .ok (warning, { world := begin read a.script source (w.withSession session) })

/-- Runs the script of the arguments. -/
def Arguments.run (a : Arguments) (read : Reader) (environment : Option String) : RunResult :=
  match a.prepare read environment with
  | .error result => result
  | .ok (warning, x) => leftBy warning (x.run a.controller)

end Pausepoint.Cli
