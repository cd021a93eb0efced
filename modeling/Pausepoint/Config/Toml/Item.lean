/-!
# The tree of a TOML document

A TOML document is a table of items under keys, in the order in which they appear. Tables can be written
in several ways, and which of them may be reopened later depends on how they were written:

* `Origin.implied` — only named on the way to another table; a header may still define it;
* `Origin.dotted` — written by keys with dots; more such keys may follow;
* `Origin.defined` — written by a header of its own; it is complete once the next header begins.

* `Item` — the tree;
* `descend` — walks along a path of keys, makes the tables that are missing, and changes the last one.
-/

namespace Pausepoint.Toml

/-- How a table came to be. -/
inductive Origin
  /-- It was named on the way to another table. -/
  | implied
  /-- It was written by keys with dots. -/
  | dotted
  /-- It was written by a header. -/
  | defined
  deriving Repr, DecidableEq, Inhabited

/-- An item of a document. -/
inductive Item
  | string (s : String)
  | integer (n : Int)
  | float (x : Float)
  | boolean (b : Bool)
  /-- A date, a time, or both. -/
  | datetime (text : String)
  | array (items : List Item)
  /-- A table written as one value, which nothing can be added to. -/
  | inlineTable (entries : List (String × Item))
  | table (origin : Origin) (entries : List (String × Item))
  /-- The tables under one key that is written in double brackets, newest first. -/
  | tables (newestFirst : List (List (String × Item)))
  deriving Inhabited

/-- Items under keys, in order of appearance. -/
abbrev Members := List (String × Item)

/-- Replaces the item under a key that is there. -/
def replace (key : String) (item : Item) : Members → Members
  | [] => []
  | (k, old) :: rest => if k = key then (k, item) :: rest else (k, old) :: replace key item rest

def remove (key : String) (members : Members) : Members :=
  members.filter fun entry => entry.1 ≠ key

/-- AnsweringMove from a table along a path of keys and applies a change to the table at its end; tables that are
missing on the way are made. A path of keys with dots enters no table that a header has defined. The
change gets the origin of the table and its members. `none` where the path leads through something that
is no table. -/
def descend {α : Type} (byDots : Bool) (change : Origin → Members → Option (α × Members)) :
    List String → Origin → Members → Option (α × Members)
  | [], origin, members => change origin members
  | key :: path, _, members =>
      match members.lookup key with
      | none =>
          let origin := if byDots then Origin.dotted else .implied
          (descend byDots change path origin []).map fun (a, inner) =>
            (a, members ++ [(key, .table origin inner)])
      | some (.table origin inner) =>
          if byDots && origin == .defined then none
          else (descend byDots change path origin inner).map fun (a, inner) =>
            (a, replace key (.table origin inner) members)
      | some (.tables (newest :: older)) =>
          (descend byDots change path .defined newest).map fun (a, inner) =>
            (a, replace key (.tables (inner :: older)) members)
      | some _ => none

/-- Puts an item under a key that is not taken. A key without dots is for the table it stands in, and a
key with dots for a table that such keys have made. -/
def insertNew (byDots : Bool) (key : String) (item : Item) (origin : Origin) (members : Members) :
    Option (Unit × Members) :=
  if byDots != (origin == .dotted) then none
  else match members.lookup key with
    | some _ => none
    | none => some ((), members ++ [(key, item)])

/-- Puts an item under a path of keys. -/
def insertPath (path : List String) (item : Item) (members : Members) : Option Members :=
  match path.getLast? with
  | none => none
  | some key =>
      let parents := path.dropLast
      let byDots := !parents.isEmpty
      (descend byDots (insertNew byDots key item) parents .defined members).map Prod.snd

end Pausepoint.Toml
