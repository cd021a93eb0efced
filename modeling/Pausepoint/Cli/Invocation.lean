import Pausepoint.Cli.Arguments

/-!
# Command lines

Options may stand anywhere before a lone double hyphen. An option that takes a value takes it after an
equals sign, or from the next argument, which then must not look like an option itself.

* `Argument.of` — what an argument is, seen alone;
* `Invocation.parse` — what a whole command line asks for;
* `usage` — how the program is used.

Arguments are read from left to right. The first fault ends the reading, and so does a wish for help or
for the version.
-/

namespace Pausepoint.Cli

/-- What a command line asks for. -/
inductive Invocation
  /-- A script is to be run. -/
  | run (arguments : Arguments)
  /-- The usage is to be explained. -/
  | help
  /-- The version is to be shown. -/
  | version
  deriving Repr, DecidableEq, Inhabited

inductive Argument
  /-- No option comes after it. -/
  | endOfOptions
  /-- A wish for help, alone or at the front of short options. -/
  | help
  /-- A wish for the version. -/
  | version
  /-- An option that takes no value. -/
  | flag
  /-- An option with the value after its equals sign. -/
  | assigned (option : ValueOption) (value : String)
  /-- An option whose value is the next argument. -/
  | awaiting (option : ValueOption)
  | fault (cause : UsageFault)
  /-- No option: a value or the script. A lone hyphen is one. -/
  | plain
  deriving Repr, DecidableEq, Inhabited

/-- An option by its name, with the value after its equals sign if it has one. -/
def Argument.ofOption (name : String) (value : Option String) : Argument :=
  match ValueOption.all.find? fun option => option.name = name, value with
  | some option, some value => .assigned option value
  | some option, none => .awaiting option
  | none, some _ =>
      if name = startupFlag || name = "--help" || name = "--version" then .fault (.needlessValue name)
      else .fault (.unknownOption name)
  | none, none =>
      if name = startupFlag then .flag
      else if name = "--help" then .help
      else if name = "--version" then .version
      else .fault (.unknownOption name)

/-- What an argument is before the end of options. -/
def Argument.of (argument : String) : Argument :=
  match argument.toList with
  | ['-', '-'] => .endOfOptions
  | '-' :: '-' :: _ =>
      let name := argument.toList.takeWhile fun c => c ≠ '='
      match argument.toList.dropWhile fun c => c ≠ '=' with
      | [] => .ofOption argument none
      | _ :: value => .ofOption (String.ofList name) (some (String.ofList value))
  | '-' :: 'h' :: _ => .help
  | '-' :: 'V' :: _ => .version
  | '-' :: _ :: _ => .fault (.unknownOption argument)
  | _ => .plain

/-- Reads the arguments after the end of options. -/
def parsePlain (d : Draft) : List String → Except UsageFault Invocation
  | [] => d.finish.map .run
  | argument :: rest =>
      match d.setScript argument with
      | .error fault => .error fault
      | .ok d => parsePlain d rest

/-- Reads the arguments after those of the draft. -/
def parseFrom (d : Draft) : List String → Except UsageFault Invocation
  | [] => d.finish.map .run
  | argument :: rest =>
      match Argument.of argument with
      | .endOfOptions => parsePlain d rest
      | .help => .ok .help
      | .version => .ok .version
      | .fault cause => .error cause
      | .plain =>
          match d.setScript argument with
          | .error fault => .error fault
          | .ok d => parseFrom d rest
      | .flag =>
          match d.setStartup with
          | .error fault => .error fault
          | .ok d => parseFrom d rest
      | .assigned option value =>
          match d.setValue option value with
          | .error fault => .error fault
          | .ok d => parseFrom d rest
      | .awaiting option =>
          match rest with
          | [] => .error (.missingValue option.name)
          | value :: rest =>
              if Argument.of value = .plain then
                match d.setValue option value with
                | .error fault => .error fault
                | .ok d => parseFrom d rest
              else .error (.missingValue option.name)

/-- What a command line, without the name of the program, asks for. -/
def Invocation.parse (arguments : List String) : Except UsageFault Invocation :=
  parseFrom {} arguments

def programName : String := "script-debug"

/-- The name of the program with its version. -/
def versionText : String := programName ++ " 0.1.0"

/-- How the program is used. -/
def usage : List String := [
  "Run a script under the debugging bridge with an automatic controller",
  "",
  "Usage: script-debug [OPTIONS] <SCRIPT>",
  "",
  "Arguments:",
  "  <SCRIPT>  Script file to run",
  "",
  "Options:",
  "      --config <CONFIG>          Path to a TOML config file",
  "      --suspend-on-startup       Stop on the first line of the script",
  "      --break <[RESOURCE:]LINE>  Line breakpoint in the root script or in a resource",
  "      --on-stop <ON_STOP>        How to continue after each stop: resume (default), step-into,",
  "                                 step-over or step-return",
  "      --max-stops <MAX_STOPS>    Terminate the script once it stopped this many times [default: 100]",
  "  -h, --help                     Print help",
  "  -V, --version                  Print version"]

end Pausepoint.Cli
