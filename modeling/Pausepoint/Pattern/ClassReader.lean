import Pausepoint.Pattern.Escape

/-!
# Classes of characters in a pattern

What stands between brackets is a row of characters, ranges, named classes and further classes in
brackets. Two equal marks, `&&`, `--` or `~~`, join the set in front of them with the one behind them, from
left to right.

* `ClassToken` — one step of a class;
* `OpenClass` — a class whose closing bracket has not been read;
* `readClass` — a class behind its opening bracket.

`classFrom` recurses on a budget of steps. Each step takes a character, so one more than the length of the
text is enough.
-/

namespace Pausepoint.Pattern

open Pausepoint.Text

/-! ### Tokens -/

/-- One step of a class. -/
inductive ClassToken
  /-- A class in brackets begins, or one of all other characters. -/
  | opening (negated : Bool)
  /-- The innermost class ends. -/
  | closing
  /-- What follows is joined with what stands in front. -/
  | operator (op : ClassOperator)
  | item (set : ClassSet)

/-- The names of classes that stand between colons. -/
def classNames : List String :=
  ["alnum", "alpha", "ascii", "blank", "cntrl", "digit", "graph", "lower", "print", "punct", "space",
    "upper", "word", "xdigit"]

/-- Is there a mark of the opposite, and what follows it. -/
def readNegation : List Char → Bool × List Char
  | '^' :: rest => (true, rest)
  | rest => (false, rest)

/-- A named class behind its opening bracket. -/
def readNamed : List Char → Option (ClassSet × List Char)
  | ':' :: rest =>
      let (negated, rest) := readNegation rest
      match rest.dropWhile (· ≠ ':') with
      | ':' :: ']' :: after =>
          if classNames.contains (String.ofList (rest.takeWhile (· ≠ ':'))) then
            some (.named negated, after)
          else none
      | _ => none
  | _ => none

/-- A class behind its opening bracket, up to what it holds. -/
def readOpening (verbose : Bool) (cs : List Char) : Bool × List Char :=
  readNegation (skipBlanks verbose cs)

/-- One member of a class. -/
def readMember (verbose : Bool) : List Char → Option (Escape × List Char)
  | [] => none
  | '\\' :: rest => readEscape verbose rest
  | c :: rest => some (.literal { char := c }, rest)

/-- The set of a single member. An edge is none. -/
def Escape.toSet? : Escape → Option ClassSet
  | .literal l => some (.literal l)
  | .shorthand negated => some (.shorthand negated)
  | _ => none

/-- The range from one member to another. -/
def rangeOf? : Escape → Escape → Option ClassSet
  | .literal first, .literal last => if first.char ≤ last.char then some (.range first last) else none
  | _, _ => none

/-- The character behind a minus sign that decides what the sign means. It is looked for behind blanks
and, past the hash of a comment, in the comment itself. -/
def decisive? (verbose : Bool) (cs : List Char) : Option Char :=
  if verbose then
    match cs.dropWhile isBlank with
    | '#' :: rest => (rest.dropWhile isBlank).head?
    | rest => rest.head?
  else cs.head?

/-- Does a minus sign, in front of the given text, make a range of the members around it? Not in front of
the closing bracket, nor as the first of two. -/
def isRangeMark (verbose : Bool) (cs : List Char) : Bool :=
  decisive? verbose cs != some ']' && decisive? verbose cs != some '-'

/-- A member of a class, or a range of them. -/
def readItem (verbose : Bool) (cs : List Char) : Option (ClassSet × List Char) := do
  let (first, rest) ← readMember verbose cs
  let rest := skipBlanks verbose rest
  match rest with
  | '-' :: behind =>
      if isRangeMark verbose behind then
        let (last, rest) ← readMember verbose (skipBlanks verbose behind)
        let set ← rangeOf? first last
        return (set, rest)
      else
        let set ← first.toSet?
        return (set, rest)
  | _ =>
      let set ← first.toSet?
      return (set, rest)

/-- The first step of the rest of a class. -/
def ClassToken.read (verbose : Bool) : List Char → Option (ClassToken × List Char)
  | '[' :: rest =>
      match readNamed rest with
      | some (set, rest) => some (.item set, rest)
      | none =>
          let (negated, rest) := readOpening verbose rest
          some (.opening negated, rest)
  | ']' :: rest => some (.closing, rest)
  | '&' :: '&' :: rest => some (.operator .intersection, rest)
  | '-' :: '-' :: rest => some (.operator .difference, rest)
  | '~' :: '~' :: rest => some (.operator .symmetricDifference, rest)
  | cs => (readItem verbose cs).map fun (set, rest) => (.item set, rest)

/-! ### Whole classes -/

/-- A class whose closing bracket has not been read. -/
structure OpenClass where
  /-- Does it stand for all other characters? -/
  negated : Bool
  /-- Has nothing been read but minus signs? -/
  isFresh : Bool := true
  /-- What stands in front of the last operator, and the operator. -/
  left : Option (ClassOperator × ClassSet) := none
  /-- What was read behind it, newest first. -/
  items : List ClassSet := []

namespace OpenClass

/-- One more item. -/
def push (k : OpenClass) (set : ClassSet) : OpenClass :=
  { k with isFresh := false, items := set :: k.items }

/-- A minus sign with which the class begins. -/
def pushDash (k : OpenClass) : OpenClass :=
  { k with items := .literal { char := '-' } :: k.items }

/-- The set that was read. -/
def set (k : OpenClass) : ClassSet :=
  let items := ClassSet.ofItems k.items.reverse
  match k.left with
  | some (op, left) => .joined op left items
  | none => items

/-- An operator behind what was read. -/
def join (k : OpenClass) (op : ClassOperator) : OpenClass :=
  { k with isFresh := false, left := some (op, k.set), items := [] }

/-- Is the bracket that follows a member of the class? It is if it is the first character. -/
def takesBracket (k : OpenClass) : Bool :=
  k.isFresh && k.items.isEmpty

end OpenClass

/-- The rest of a class inside others, innermost first; gives the outermost one. -/
def classFrom (verbose : Bool) :
    Nat → List OpenClass → OpenClass → List Char → Option (OpenClass × List Char)
  | 0, _, _, _ => none
  | budget + 1, enclosing, k, cs =>
      match k.isFresh, k.takesBracket, skipBlanks verbose cs with
      | true, _, '-' :: rest => classFrom verbose budget enclosing k.pushDash rest
      | _, true, ']' :: rest =>
          classFrom verbose budget enclosing (k.push (.literal { char := ']' })) rest
      | _, _, cs =>
          match ClassToken.read verbose cs with
          | none => none
          | some (.opening negated, rest) => classFrom verbose budget (k :: enclosing) { negated } rest
          | some (.operator op, rest) => classFrom verbose budget enclosing (k.join op) rest
          | some (.item set, rest) => classFrom verbose budget enclosing (k.push set) rest
          | some (.closing, rest) =>
              match enclosing with
              | [] => some (k, rest)
              | outer :: enclosing =>
                  classFrom verbose budget enclosing (outer.push (.bracketed k.negated k.set)) rest

/-- A class behind its opening bracket. -/
def readClass (verbose : Bool) (cs : List Char) : Option (Pattern × List Char) :=
  let (negated, rest) := readOpening verbose cs
  (classFrom verbose (rest.length + 1) [] { negated } rest).map fun (k, rest) =>
    (.ofClass k.negated k.set, rest)

end Pausepoint.Pattern
