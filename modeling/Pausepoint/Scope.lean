import Pausepoint.Value

/-!
# Scopes

A scope is a live table of variables. Several frames of a stack may share one scope, and a debugger
that holds a frame sees what the script has written since, so a frame names its scope and does not copy
it. Two scopes with equal contents are still two scopes.

* `ScopeId` — the name of a scope: the heap that owns it and its place there;
* `Heap` — the scopes of one owner: an interpreter, or the session's own side;
* `Heap.create`, `Heap.set`, `Heap.get?` — a new scope, a write, a read;
* `visible` — the variables a debugger shows: everything but null values.
-/

namespace Pausepoint

/-- The name of a scope. -/
structure ScopeId where
  /-- The heap that owns it. -/
  heap : Nat
  /-- Its place in that heap. -/
  index : Nat
  deriving Repr, DecidableEq, Inhabited

/-- The scopes of one owner, in order of creation. -/
structure Heap where
  /-- The contents of each scope. -/
  scopes : Array Entries := #[]
  deriving Inhabited

namespace Heap

/-- The bindings of a scope; a scope that was never created has none. -/
def bindings (h : Heap) (index : Nat) : Entries :=
  h.scopes[index]?.getD []

/-- The place that the next scope gets. -/
def next (h : Heap) : Nat :=
  h.scopes.size

/-- Adds an empty scope, whose place is `next`. -/
def create (h : Heap) : Heap :=
  ⟨h.scopes.push []⟩

/-- Binds a name in a scope. -/
def set (h : Heap) (index : Nat) (name : String) (value : Value) : Heap :=
  ⟨h.scopes.modify index (Entries.insert name value)⟩

/-- The value of a name in a scope. -/
def get? (h : Heap) (index : Nat) (name : String) : Option Value :=
  Entries.get? name (h.bindings index)

/-- A new scope is empty and leaves the others as they are. -/
@[simp] theorem bindings_create (h : Heap) (index : Nat) :
    h.create.bindings index = h.bindings index := by
  simp only [bindings, create, Array.getElem?_push]
  split
  · next hi => subst hi; simp
  · rfl

/-- A write changes no other scope. -/
theorem bindings_set_of_ne (h : Heap) {index other : Nat} (name : String) (value : Value)
    (hne : other ≠ index) : (h.set index name value).bindings other = h.bindings other := by
  simp [bindings, set, Array.getElem?_modify, Ne.symm hne]

/-- A write to a scope that exists binds the name there. -/
theorem bindings_set_self (h : Heap) {index : Nat} (name : String) (value : Value)
    (hi : index < h.next) :
    (h.set index name value).bindings index = Entries.insert name value (h.bindings index) := by
  simp only [next] at hi
  simp [bindings, set, Array.getElem_modify, hi]

@[simp] theorem next_create (h : Heap) : h.create.next = h.next + 1 := by
  simp [create, next]

@[simp] theorem next_set (h : Heap) (index : Nat) (name : String) (value : Value) :
    (h.set index name value).next = h.next := by
  simp [set, next]

end Heap

/-- The variables of a scope that a debugger shows, sorted by name. -/
def visible (bindings : Entries) : List Variable :=
  (bindings.filter fun entry => !entry.2.isNull).map fun entry => ⟨entry.1, entry.2⟩

end Pausepoint
