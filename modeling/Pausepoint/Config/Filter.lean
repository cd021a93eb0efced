import Pausepoint.Config.Directive
import Pausepoint.Config.Settings

/-!
# Log filters

A filter is written as directives between commas. It keeps one directive for the same things, the newest,
and keeps them in order, the most specific first. Those that can be decided without the open spans come
before the others; a directive of both kinds is kept twice.

* `Filter`, `Filter.ofList` — the directives of a filter, and how it comes by them;
* `Filter.parse?` — a filter from its text;
* `LoggingSettings.filter` — the filter of the settings and of the environment together.
-/

namespace Pausepoint

open Pausepoint.Text

/-- The directives in effect. -/
structure Filter where
  /-- Those that can be decided without the open spans. -/
  fixed : List Directive := []
  /-- Those that need the open spans. -/
  contextual : List Directive := []
  deriving Inhabited

namespace Filter

/-- Puts a directive at its place, instead of an older one for the same things. -/
def insert (d : Directive) : List Directive → List Directive
  | [] => [d]
  | other :: rest =>
      match d.compare other with
      | .lt => d :: other :: rest
      | .eq => d :: rest
      | .gt => other :: insert d rest

/-- Directives in order. -/
def arrange (directives : List Directive) : List Directive :=
  directives.foldl (fun done d => insert d done) []

/-- The filter of some directives, oldest first. Of those without spans and fields, any is older than one
with a field. -/
def ofList (directives : List Directive) : Filter :=
  let contextual := directives.filter Directive.isContextual
  let plain := directives.filter fun d => !d.isContextual
  { fixed := arrange (plain ++ contextual.filter Directive.isFixed)
    contextual := arrange contextual }

def text (f : Filter) : String :=
  ",".intercalate ((f.fixed ++ f.contextual).map Directive.text)

/-- The parts of a text between commas that are not empty. -/
def parts (s : String) : List (List Char) :=
  ((s.splitOn ",").map String.toList).filter fun part => !part.isEmpty

/-- A filter from its text; one malformed directive spoils it. -/
def parse? (s : String) : Option Filter :=
  ((parts s).mapM Directive.parse?).map ofList

end Filter

namespace LoggingSettings

/-- The level that is set: information if there is none, and the long name of warnings is known. -/
def levelText (s : LoggingSettings) : String :=
  let level := trimString s.level
  if level.isEmpty then "info"
  else if lowerAscii level = "warning" then "warn"
  else level

/-- The text of the filter: the level that is set, then what the environment asks for. -/
def directives (s : LoggingSettings) (environment : Option String) : String :=
  match (environment.map trimString).filter fun e => !e.isEmpty with
  | some e => s.levelText ++ "," ++ e
  | none => s.levelText

/-- The filter in effect. What the environment asks for is left out if it makes the filter malformed, and
a malformed level counts as information. -/
def filter (s : LoggingSettings) (environment : Option String) : Filter :=
  match Filter.parse? (s.directives environment) with
  | some f => f
  | none => (Filter.parse? (s.directives none)).getD (.ofList [{ level := .info }])

end LoggingSettings

end Pausepoint
