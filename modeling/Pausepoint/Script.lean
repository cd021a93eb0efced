import Pausepoint.Text.Lines
import Pausepoint.Text.Document

/-!
# Scripts and their snapshots

A script is what an interpreter holds while it runs; its source may be edited. A snapshot is what was
true of a script at one moment, and later edits do not show in it. A script loaded from a resource is
static; without a resource it is dynamic code.
-/

namespace Pausepoint

/-- The identity an interpreter gives to a script it loads. -/
structure ScriptId where
  number : Nat
  deriving Repr, DecidableEq, Inhabited

instance : ToString ScriptId :=
  ⟨fun id => "script#" ++ toString id.number⟩

structure Script where
  id : ScriptId
  /-- A title of its own, if it was given one. -/
  givenTitle : Option String := none
  source : String
  /-- The resource it was loaded from. -/
  resource : Option String := none
  deriving Repr, DecidableEq, Inhabited

/-- A script as it was at one moment. -/
structure Snapshot where
  /-- The identity of the script. -/
  id : ScriptId
  title : String
  source : String
  /-- The resource it was loaded from. -/
  resource : Option String
  deriving Repr, DecidableEq, Inhabited

namespace Script

/-- Code that comes from no resource. -/
def isDynamic (s : Script) : Bool :=
  s.resource.isNone

/-- The last segment of a path, whichever slash separates its segments. -/
def lastSegment (path : List Char) : List Char :=
  (path.reverse.takeWhile fun c => c ≠ '/' && c ≠ '\\').reverse

/-- The given title, else the last segment of the resource. -/
def title (s : Script) : String :=
  match s.givenTitle, s.resource with
  | some title, _ => title
  | none, some resource => String.ofList (lastSegment resource.toList)
  | none, none => "(dynamic code)"

/-- The script as it is now. -/
def snapshot (s : Script) : Snapshot :=
  { id := s.id, title := s.title, source := s.source, resource := s.resource }

end Script

namespace Snapshot

/-- Code that comes from no resource. -/
def isDynamic (s : Snapshot) : Bool :=
  s.resource.isNone

/-- A source line by its 1-based number. -/
def line? (s : Snapshot) (number : Nat) : Option String :=
  Text.line? s.source number

def document (s : Snapshot) : Text.Document :=
  .object
    [("id", .integer s.id.number), ("title", .string s.title), ("source", .string s.source),
      ("resource", .ofOption .string s.resource), ("dynamic", .bool s.isDynamic)]

end Snapshot

@[simp] theorem Script.snapshot_isDynamic (s : Script) : s.snapshot.isDynamic = s.isDynamic := rfl

end Pausepoint
