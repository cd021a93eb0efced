import Pausepoint.Scope
import Pausepoint.Script

/-!
# Stack frames

A frame is one entry of a call stack as it was reported: a snapshot of its script, the line it is at,
why it is there, a name to show, and its scope. The frame of a script that is announced but has not been
entered has no scope, hence no variables.
-/

namespace Pausepoint

/-- Why a frame is on the stack. -/
inductive FrameKind
  /-- The entry of a script, or a function call. -/
  | call
  /-- A script that another one pulled in. -/
  | included
  /-- Code that was made up at run time. -/
  | dynamic
  deriving Repr, DecidableEq, Inhabited

/-- The word for a kind of frame in documents. -/
def FrameKind.word : FrameKind → String
  | .call => "call"
  | .included => "include"
  | .dynamic => "dynamic"

/-- One entry of a call stack. -/
structure Frame where
  /-- The script, as it was when the frame was captured. -/
  script : Snapshot
  /-- The line the frame is at; 0 before its first statement. -/
  line : Nat
  /-- Why it is on the stack. -/
  kind : FrameKind
  /-- The name it is shown under. -/
  name : String
  /-- Its variables, if it has been entered. -/
  scope : Option ScopeId
  deriving Repr, DecidableEq, Inhabited

namespace Frame

/-- A frame under its usual name, the title of its script and the line. -/
def capture (script : Snapshot) (line : Nat) (kind : FrameKind) (scope : Option ScopeId) : Frame :=
  { script, line, kind, scope, name := script.title ++ ", line " ++ toString line }

/-- The same frame under another name. -/
def withName (f : Frame) (name : String) : Frame :=
  { f with name }

/-- Does the frame show dynamic code, by its kind or by its script? -/
def isDynamic (f : Frame) : Bool :=
  f.kind == .dynamic || f.script.isDynamic

end Frame

end Pausepoint
