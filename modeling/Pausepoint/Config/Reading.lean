import Pausepoint.Config.Settings
import Pausepoint.Config.Toml.Reader
import Pausepoint.Decimal.Layout
import Pausepoint.Text.Literal

/-!
# Settings from a document

The settings are two tables, `debugger` and `logging`; every key is optional, and a key that is not known
is a fault. Entries are read in order of appearance, and the first fault ends the reading. A table may
also be given as a sequence of its values, in the order of the keys.

* `SettingsFault` — what can be wrong, with its wording;
* `Fields` — the keys of a table, each with what it changes;
* `Settings.ofToml` — the settings of a document.
-/

namespace Pausepoint

open Pausepoint.Toml (Item Members)

/-- What can be wrong with settings. -/
inductive SettingsFault
  /-- The text is no document. -/
  | malformed
  /-- A key is not known; those that are. -/
  | unknownField (name : String) (known : List String)
  /-- A value has another type than expected. -/
  | invalidType (found expected : String)
  /-- A value of the right type is out of range. -/
  | invalidValue (found expected : String)
  deriving Repr, DecidableEq, Inhabited

/-- How known keys are listed. -/
def listKnown : List String → String
  | [] => "there are no fields"
  | [a] => s!"expected `{a}`"
  | [a, b] => s!"expected `{a}` or `{b}`"
  | names => "expected one of " ++ ", ".intercalate (names.map fun n => "`" ++ n ++ "`")

def SettingsFault.message : SettingsFault → String
  | .malformed => "failed to parse toml config: malformed document"
  | .unknownField name known =>
      s!"failed to parse toml config: unknown field `{name}`, {listKnown known}"
  | .invalidType found expected =>
      s!"failed to parse toml config: invalid type: {found}, expected {expected}"
  | .invalidValue found expected =>
      s!"failed to parse toml config: invalid value: {found}, expected {expected}"

/-- The form of a floating-point number in a message: like the displayed one, with a decimal on whole
numbers. -/
def messageLayout : Decimal.Layout :=
  { Decimal.Layout.display with wholeSuffix := ".0" }

/-- What an item is called in a message. -/
def describe : Item → String
  | .string s => "string " ++ Text.showText s
  | .integer n => "integer `" ++ toString n ++ "`"
  | .float x => "floating point `" ++ messageLayout.text x ++ "`"
  | .boolean b => "boolean `" ++ toString b ++ "`"
  | .array _ | .tables _ => "sequence"
  | .datetime _ | .inlineTable _ | .table .. => "map"

/-- The result of reading something from an item. -/
abbrev Read (α : Type) := Except SettingsFault α

/-- A truth value. -/
def readFlag : Item → Read Bool
  | .boolean b => .ok b
  | item => .error (.invalidType (describe item) "a boolean")

/-- A natural number. -/
def readMilliseconds : Item → Read Nat
  | .integer n =>
      if 0 ≤ n then .ok n.toNat
      else .error (.invalidValue (describe (.integer n)) "u64")
  | item => .error (.invalidType (describe item) "u64")

/-- A text, which a fault calls by the given name. -/
def readText (expected : String) : Item → Read String
  | .string s => .ok s
  | item => .error (.invalidType (describe item) expected)

/-- The keys of a table, each with the change that an item under it makes. -/
abbrev Fields (α : Type) := List (String × (Item → α → Read α))

/-- Reads entries in order. -/
def Fields.readEntries {α : Type} (fields : Fields α) : Members → α → Read α
  | [], a => .ok a
  | (name, item) :: rest, a =>
      match fields.lookup name with
      | none => .error (.unknownField name (fields.map Prod.fst))
      | some change =>
          match change item a with
          | .ok a => readEntries fields rest a
          | .error fault => .error fault

/-- Reads values in the order of the keys; what exceeds the keys is not looked at. -/
def readSequence {α : Type} : Fields α → List Item → α → Read α
  | (_, change) :: fields, item :: rest, a =>
      match change item a with
      | .ok a => readSequence fields rest a
      | .error fault => .error fault
  | _, _, a => .ok a

/-- The key under which a date stands where a table is expected. -/
def dateKey : String := "$__toml_private_datetime"

/-- Reads a table, which a fault calls by the given name. -/
def Fields.read {α : Type} (fields : Fields α) (expected : String) (start : α) : Item → Read α
  | .table _ entries | .inlineTable entries => fields.readEntries entries start
  | .datetime text => fields.readEntries [(dateKey, .string text)] start
  | .array items => readSequence fields items start
  | .tables newestFirst =>
      readSequence fields (newestFirst.reverse.map fun members => .table .defined members) start
  | item => .error (.invalidType (describe item) expected)

/-- The keys of the table of debug sessions. -/
def debuggerFields : Fields DebuggerSettings :=
  [("suspend_on_startup", fun item s => do return { s with suspendOnStartup := ← readFlag item }),
    ("suspend_on_script_load", fun item s => do
      return { s with suspendOnScriptLoad := ← readFlag item }),
    ("show_dynamic_code", fun item s => do return { s with showDynamicCode := ← readFlag item }),
    ("dedupe_queued_events", fun item s => do
      return { s with dedupeQueuedEvents := ← readFlag item }),
    ("slow_handler_warn_ms", fun item s => do
      return { s with slowHandlerWarnMs := ← readMilliseconds item }),
    ("resume_timeout_ms", fun item s => do
      return { s with resumeTimeoutMs := ← readMilliseconds item })]

/-- The keys of the table of logging. -/
def loggingFields : Fields LoggingSettings :=
  [("level", fun item s => do return { s with level := ← readText "a string" item }),
    ("json", fun item s => do return { s with json := ← readFlag item }),
    ("stderr", fun item s => do return { s with stderr := ← readFlag item }),
    ("file", fun item s => do return { s with file := some (← readText "path string" item) })]

/-- The tables of settings. -/
def settingsFields : Fields Settings :=
  [("debugger", fun item s => do
      return { s with debugger := ← debuggerFields.read "struct DebuggerConfig" {} item }),
    ("logging", fun item s => do
      return { s with logging := ← loggingFields.read "struct LoggingConfig" {} item })]

/-- The settings of a document. -/
def Settings.ofToml (source : String) : Read Settings :=
  match Toml.parse? source with
  | none => .error .malformed
  | some members => settingsFields.readEntries members {}

end Pausepoint
