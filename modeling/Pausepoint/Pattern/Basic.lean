/-!
# Patterns

A pattern is a regular expression that the value of a field is compared with. What it matches is of no
concern here, only whether it is a pattern at all, so the tree of a pattern keeps what that depends on.

* `Setting` — an option that is switched on or off inside a pattern;
* `ClassSet` — what stands between the brackets of a class of characters;
* `Pattern` — the tree of a pattern;
* `Pattern.depth`, `Pattern.groupNames` — how deep the parts of a pattern lie inside one another, and the
  names of its groups.

A sequence of parts, of branches or of members of a class is a part of its own only if there are at least
two of them, so `ClassSet.ofItems`, `Pattern.ofItems` and `Pattern.ofBranches` are the ways to build one.
-/

namespace Pausepoint

namespace Pattern

/-! ### Options -/

/-- What can be switched inside a pattern. -/
inductive Flag
  /-- Letters match in either case. -/
  | ignoreCase
  /-- The edges are those of lines. -/
  | multiLine
  /-- A dot matches the end of a line too. -/
  | dotAll
  /-- What is greedy and what is not change places. -/
  | swapGreed
  /-- The characters of all scripts are known; otherwise only those of ASCII are, and all else is bytes. -/
  | allScripts
  /-- A line may end with a carriage return too. -/
  | carriageReturn
  /-- Blanks and comments between the parts say nothing. -/
  | verbose
  deriving Repr, DecidableEq

def Flag.ofLetter? : Char → Option Flag
  | 'i' => some .ignoreCase
  | 'm' => some .multiLine
  | 's' => some .dotAll
  | 'U' => some .swapGreed
  | 'u' => some .allScripts
  | 'R' => some .carriageReturn
  | 'x' => some .verbose
  | _ => none

/-- A flag that is switched on or off. -/
structure Setting where
  flag : Flag
  on : Bool
  deriving Repr, DecidableEq

/-- The state of a flag after settings that may not mention it. -/
def Flag.stateAfter (flag : Flag) (settings : List Setting) (before : Bool) : Bool :=
  match settings.find? (·.flag = flag) with
  | some setting => setting.on
  | none => before

/-! ### Classes of characters -/

/-- A character that stands for itself. -/
structure Literal where
  char : Char
  /-- Is it written as two hexadecimal digits? Then it can stand for a byte. -/
  isByte : Bool := false
  deriving Repr, DecidableEq

/-- What joins two sets of characters. -/
inductive ClassOperator
  | intersection
  /-- What is in the first one only. -/
  | difference
  /-- What is in exactly one of them. -/
  | symmetricDifference
  deriving Repr, DecidableEq

/-- A set of characters inside the brackets of a class. -/
inductive ClassSet
  | empty
  | literal (l : Literal)
  /-- All characters from one to another. -/
  | range (first last : Literal)
  /-- The digits, the blanks or the characters of words, by a letter, or all others. -/
  | shorthand (negated : Bool)
  /-- A class by its name between colons, or all others. -/
  | named (negated : Bool)
  /-- A class in brackets of its own, or all others. -/
  | bracketed (negated : Bool) (inner : ClassSet)
  /-- All members of two or more sets. -/
  | union (items : List ClassSet)
  /-- Two sets joined by an operator. -/
  | joined (op : ClassOperator) (left right : ClassSet)
  deriving Inhabited

/-- The set of all members of the items. -/
def ClassSet.ofItems : List ClassSet → ClassSet
  | [] => .empty
  | [item] => item
  | items => .union items

mutual
/-- How deep the parts of a set lie inside one another. -/
def ClassSet.depth : ClassSet → Nat
  | .bracketed _ inner => inner.depth + 1
  | .union items => ClassSet.maxDepth items + 1
  | .joined _ left right => max left.depth right.depth + 1
  | _ => 0
/-- The greatest depth of the items. -/
def ClassSet.maxDepth : List ClassSet → Nat
  | [] => 0
  | item :: rest => max item.depth (ClassSet.maxDepth rest)
end

/-! ### Patterns -/

/-- What a group says about itself. -/
structure Group where
  name : Option (List Char) := none
  /-- What it switches for what it holds. -/
  settings : List Setting := []
  deriving Repr, DecidableEq

end Pattern

inductive Pattern
  | empty
  | literal (l : Pattern.Literal)
  | anything
  /-- An edge of a text or of a line. -/
  | edge
  /-- An edge of a word, or the absence of one. -/
  | wordEdge
  /-- The digits, the blanks or the characters of words, by a letter, or all others. -/
  | shorthand (negated : Bool)
  /-- One character of a class in brackets, or one of all others. -/
  | ofClass (negated : Bool) (inner : Pattern.ClassSet)
  | repetition (inner : Pattern)
  /-- Options for the rest of the innermost group. -/
  | options (settings : List Pattern.Setting)
  | group (head : Pattern.Group) (inner : Pattern)
  /-- Two or more parts, one behind the other. -/
  | sequence (items : List Pattern)
  /-- One of two or more branches. -/
  | alternation (branches : List Pattern)
  deriving Inhabited

namespace Pattern

/-- Parts, one behind the other. -/
def ofItems : List Pattern → Pattern
  | [] => .empty
  | [item] => item
  | items => .sequence items

def ofBranches : List Pattern → Pattern
  | [] => .empty
  | [branch] => branch
  | branches => .alternation branches

mutual
/-- How deep the parts of a pattern lie inside one another. -/
def depth : Pattern → Nat
  | .ofClass _ inner => inner.depth + 1
  | .repetition inner => inner.depth + 1
  | .group _ inner => inner.depth + 1
  | .sequence items => maxDepth items + 1
  | .alternation branches => maxDepth branches + 1
  | _ => 0
/-- The greatest depth of the parts. -/
def maxDepth : List Pattern → Nat
  | [] => 0
  | item :: rest => max item.depth (maxDepth rest)
end

mutual
/-- The names of the groups, from left to right. -/
def groupNames : Pattern → List (List Char)
  | .repetition inner => inner.groupNames
  | .group head inner => head.name.toList ++ inner.groupNames
  | .sequence items => allGroupNames items
  | .alternation branches => allGroupNames branches
  | _ => []
/-- The names of the groups of all parts. -/
def allGroupNames : List Pattern → List (List Char)
  | [] => []
  | item :: rest => item.groupNames ++ allGroupNames rest
end

end Pattern

end Pausepoint
