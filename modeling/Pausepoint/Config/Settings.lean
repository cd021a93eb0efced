/-!
# Settings

The settings of a debug session and of logging, each with a default.
-/

namespace Pausepoint

/-- How a debug session behaves. -/
structure DebuggerSettings where
  /-- Stop on the first line of a root script. -/
  suspendOnStartup : Bool := false
  /-- Stop on the first line of every script that is loaded. -/
  suspendOnScriptLoad : Bool := false
  /-- Show frames of dynamic code. -/
  showDynamicCode : Bool := false
  /-- Drop an event while an equal one is still queued. -/
  dedupeQueuedEvents : Bool := false
  /-- From how many milliseconds on the handling of an event counts as slow; 0 for never. -/
  slowHandlerWarnMs : Nat := 250
  /-- For how many milliseconds a stopped thread waits for a decision; 0 for ever. -/
  resumeTimeoutMs : Nat := 0
  deriving Repr, DecidableEq, Inhabited

/-- Where log output goes, and how much of it. -/
structure LoggingSettings where
  /-- A level, or directives for single targets. -/
  level : String := "info"
  /-- Write log lines as documents. -/
  json : Bool := false
  /-- Write log lines to the error stream. -/
  stderr : Bool := true
  /-- Append log lines to this file. -/
  file : Option String := none
  deriving Repr, DecidableEq, Inhabited

structure Settings where
  debugger : DebuggerSettings := {}
  logging : LoggingSettings := {}
  deriving Repr, DecidableEq, Inhabited

/-- A number of milliseconds of which zero means none. -/
def positive? (n : Nat) : Option Nat :=
  if n = 0 then none else some n

/-- From how many milliseconds on handling is slow, if ever. -/
def DebuggerSettings.slowThreshold (s : DebuggerSettings) : Option Nat :=
  positive? s.slowHandlerWarnMs

/-- For how many milliseconds a stopped thread waits, if not for ever. -/
def DebuggerSettings.resumeTimeout (s : DebuggerSettings) : Option Nat :=
  positive? s.resumeTimeoutMs

end Pausepoint
