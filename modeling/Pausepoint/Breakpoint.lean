import Pausepoint.Table
import Pausepoint.Text.Document

/-!
# Breakpoints

A breakpoint is a line of a resource; a disabled one stops nothing but is still there. Breakpoints that
differ only in being enabled are different breakpoints.

* `BreakpointStore` — the breakpoints that the user has set, for every resource in the order in which
  they were added; no resource is kept without one;
* `BreakpointStore.add`, `BreakpointStore.remove` — both say whether they changed anything.
-/

namespace Pausepoint

/-- A line of a resource at which to stop. -/
structure Breakpoint where
  resource : String
  /-- The 1-based line. -/
  line : Nat
  /-- Does it stop a script? -/
  enabled : Bool := true
  deriving Repr, DecidableEq, Inhabited

/-- What happens to a breakpoint of a script. -/
inductive BreakpointAction
  | add
  /-- It is taken away. -/
  | remove
  deriving Repr, DecidableEq, Inhabited

namespace Breakpoint

/-- Does it stop a script at this line? -/
def hits (b : Breakpoint) (line : Nat) : Bool :=
  b.enabled && b.line == line

def document (b : Breakpoint) : Text.Document :=
  .object [("resource", .string b.resource), ("line", .integer b.line), ("enabled", .bool b.enabled)]

/-- Adds a breakpoint at the end unless it is there. -/
def addTo (b : Breakpoint) (list : List Breakpoint) : List Breakpoint :=
  if b ∈ list then list else list ++ [b]

/-- Removes a breakpoint wherever it is. -/
def removeFrom (b : Breakpoint) (list : List Breakpoint) : List Breakpoint :=
  list.filter (· ≠ b)

/-- Applies an action to the breakpoints of a script. -/
def apply (b : Breakpoint) : BreakpointAction → List Breakpoint → List Breakpoint
  | .add, list => b.addTo list
  | .remove, list => b.removeFrom list

@[simp] theorem mem_addTo {b c : Breakpoint} {list : List Breakpoint} :
    c ∈ b.addTo list ↔ c ∈ list ∨ c = b := by
  unfold addTo
  split
  · next h => exact ⟨Or.inl, fun hc => hc.elim id fun hcb => hcb ▸ h⟩
  · simp

@[simp] theorem mem_removeFrom {b c : Breakpoint} {list : List Breakpoint} :
    c ∈ b.removeFrom list ↔ c ∈ list ∧ c ≠ b := by
  simp [removeFrom]

end Breakpoint

/-- The breakpoints that are set, by resource. -/
structure BreakpointStore where
  /-- The breakpoints of each resource that has any. -/
  byResource : Table String (List Breakpoint) := .empty
  deriving Repr, DecidableEq, Inhabited

namespace BreakpointStore

/-- The breakpoints of a resource, oldest first. -/
def forResource (s : BreakpointStore) (resource : String) : List Breakpoint :=
  (s.byResource.get? resource).getD []

/-- Adds a breakpoint; the flag is false if it was there. -/
def add (s : BreakpointStore) (b : Breakpoint) : Bool × BreakpointStore :=
  let list := s.forResource b.resource
  if b ∈ list then (false, s)
  else (true, ⟨s.byResource.insert b.resource (list ++ [b])⟩)

/-- Removes a breakpoint; the flag is false if it was not there. -/
def remove (s : BreakpointStore) (b : Breakpoint) : Bool × BreakpointStore :=
  let list := s.forResource b.resource
  if b ∈ list then
    let rest := b.removeFrom list
    (true, ⟨if rest.isEmpty then s.byResource.erase b.resource
      else s.byResource.insert b.resource rest⟩)
  else (false, s)

/-- How many breakpoints are set. -/
def size (s : BreakpointStore) : Nat :=
  s.byResource.entries.foldr (fun entry n => entry.2.length + n) 0

/-- Is none set? -/
def isEmpty (s : BreakpointStore) : Bool :=
  s.size == 0

end BreakpointStore

end Pausepoint
