import Pausepoint.Event
import Pausepoint.Text.Numeral

/-!
# Arguments

How a script is to be run, and the options that say so.

* `Arguments` — a script and how to run it, with a default for all but the script;
* `UsageFault` — what can be wrong with a command line;
* `ValueOption` — the options that take a value;
* `Draft` — the arguments while they are read: the script and most options stand at most once, and every
  value is judged when it is noted.
-/

namespace Pausepoint.Cli

open Pausepoint.Text

/-- How to run a script. -/
structure Arguments where
  script : String
  settings : Option String := none
  /-- Stop on the first line. -/
  suspendOnStartup : Bool := false
  /-- The breakpoints, in the order in which they were written. -/
  breakpoints : List String := []
  /-- How to go on after a stop. -/
  onStop : Mode := .resume
  /-- The number of the stop that ends the script; zero ends it at the first one too. -/
  maxStops : Nat := 100
  deriving Repr, DecidableEq, Inhabited

/-- What is wrong with a command line. -/
inductive UsageFault
  /-- No option has this name. -/
  | unknownOption (argument : String)
  /-- There is no place for this argument. -/
  | unexpectedArgument (argument : String)
  /-- An option lacks its value. -/
  | missingValue (option : String)
  /-- An option that takes no value has one. -/
  | needlessValue (option : String)
  /-- An option does not take this value. -/
  | invalidValue (option value : String)
  /-- An option stands twice. -/
  | repeated (option : String)
  | missingScript
  deriving Repr, DecidableEq, Inhabited

def UsageFault.message : UsageFault → String
  | .unknownOption argument => s!"unexpected argument '{argument}' found"
  | .unexpectedArgument argument => s!"unexpected argument '{argument}' found"
  | .missingValue option => s!"a value is required for '{option}' but none was supplied"
  | .needlessValue option => s!"unexpected value for '{option}' found; no more were expected"
  | .invalidValue option value => s!"invalid value '{value}' for '{option}'"
  | .repeated option => s!"the argument '{option}' cannot be used multiple times"
  | .missingScript => "the following required arguments were not provided: <SCRIPT>"

/-! ### Options -/

/-- The options that take a value. -/
inductive ValueOption
  | settings
  | breakpoint
  | onStop
  | maxStops
  deriving Repr, DecidableEq, Inhabited

def ValueOption.name : ValueOption → String
  | .settings => "--config"
  | .breakpoint => "--break"
  | .onStop => "--on-stop"
  | .maxStops => "--max-stops"

/-- The options that take a value. -/
def ValueOption.all : List ValueOption :=
  [.settings, .breakpoint, .onStop, .maxStops]

/-- The name of the option that stops on the first line. -/
def startupFlag : String := "--suspend-on-startup"

/-- A way to go on, by its name. -/
def modeNamed? : String → Option Mode
  | "resume" => some .resume
  | "step-into" => some .stepInto
  | "step-over" => some .stepOver
  | "step-return" => some .stepReturn
  | _ => none

/-- The largest number of stops that can be given: it has 64 bits. -/
def maxStopsLimit : Nat := 18446744073709551615

/-- The part of a command line that was read. -/
structure Draft where
  script : Option String := none
  settings : Option String := none
  /-- Stop on the first line. -/
  suspendOnStartup : Bool := false
  /-- The breakpoints, newest first. -/
  breakpoints : List String := []
  /-- How to go on after a stop. -/
  onStop : Option Mode := none
  maxStops : Option Nat := none
  deriving Repr, DecidableEq, Inhabited

namespace Draft

/-- Notes that the script is to stop on its first line. -/
def setStartup (d : Draft) : Except UsageFault Draft :=
  if d.suspendOnStartup then .error (.repeated startupFlag) else .ok { d with suspendOnStartup := true }

/-- Notes the value of an option. A value that the option does not take is reported before a repetition
is. -/
def setValue (d : Draft) (option : ValueOption) (value : String) : Except UsageFault Draft :=
  let once (isSet : Bool) (d : Draft) : Except UsageFault Draft :=
    if isSet then .error (.repeated option.name) else .ok d
  match option with
  | .settings =>
      if value.isEmpty then .error (.missingValue option.name)
      else once d.settings.isSome { d with settings := some value }
  | .breakpoint => .ok { d with breakpoints := value :: d.breakpoints }
  | .onStop =>
      match modeNamed? value with
      | none => .error (.invalidValue option.name value)
      | some mode => once d.onStop.isSome { d with onStop := some mode }
  | .maxStops =>
      match readUnsigned maxStopsLimit value.toList with
      | .error _ => .error (.invalidValue option.name value)
      | .ok n => once d.maxStops.isSome { d with maxStops := some n }

/-- Notes an argument that is no option: the script, which has a name and is the only one. -/
def setScript (d : Draft) (path : String) : Except UsageFault Draft :=
  if d.script.isSome then .error (.unexpectedArgument path)
  else if path.isEmpty then .error .missingScript
  else .ok { d with script := some path }

/-- The arguments that were read, with defaults for those that were not. -/
def finish (d : Draft) : Except UsageFault Arguments :=
  match d.script with
  | none => .error .missingScript
  | some script =>
      .ok {
        script
        settings := d.settings
        suspendOnStartup := d.suspendOnStartup
        breakpoints := d.breakpoints.reverse
        onStop := d.onStop.getD .resume
        maxStops := d.maxStops.getD 100 }

end Draft

end Pausepoint.Cli
