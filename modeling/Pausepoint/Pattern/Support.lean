import Pausepoint.Pattern.Reader

/-!
# Which expressions are patterns

A pattern matches whole characters, and it is matched without tables of all scripts. So what a part may be
depends on the options around it.

* While the characters of all scripts are known, the shorthands, the edges of words, and characters in
  either case would need such a table.
* Otherwise the expression is about bytes. A part that may match a byte outside of ASCII might split a
  character: a dot, such a byte, and everything that stands for all others.

Main definitions:

* `Mode` — the options that matter, at some place in a pattern;
* `ClassSet.isSupported`, `Pattern.modeAfter?` — whether all parts may be what they are;
* `Pattern.isPattern` — whether a text is a pattern.
-/

namespace Pausepoint.Pattern

/-! ### Options at a place -/

/-- The options that decide what the parts of a pattern may be. -/
structure Mode where
  /-- Do letters match in either case? -/
  ignoreCase : Bool := false
  /-- Are the characters of all scripts known? -/
  allScripts : Bool := true
  deriving Repr, DecidableEq

namespace Mode

/-- The options after some settings. -/
def after (mode : Mode) (settings : List Setting) : Mode where
  ignoreCase := Flag.ignoreCase.stateAfter settings mode.ignoreCase
  allScripts := Flag.allScripts.stateAfter settings mode.allScripts

/-- May there be a character outside of a class? Among bytes, the bytes of a character stand for it. -/
def allowsLiteral (mode : Mode) (l : Literal) : Bool :=
  if mode.allScripts then !mode.ignoreCase else !l.isByte || decide (l.char.toNat < 0x80)

/-- May there be a character in a class? Among bytes, it has to be one byte. -/
def allowsMember (mode : Mode) (l : Literal) : Bool :=
  if mode.allScripts then !mode.ignoreCase else decide (l.char.toNat < 0x80)

/-- May there be a shorthand, or the one for all other characters? -/
def allowsShorthand (mode : Mode) (negated : Bool) : Bool :=
  !mode.allScripts && !negated

/-- May there be a named class, or the one of all other characters? -/
def allowsNamed (mode : Mode) (negated : Bool) : Bool :=
  if mode.allScripts then !mode.ignoreCase else !negated

/-- May there be a class in brackets, or the one of all other characters? -/
def allowsBracketed (mode : Mode) (negated : Bool) : Bool :=
  mode.allScripts || !negated

end Mode

/-! ### Parts -/

mutual
/-- May all parts of a set be what they are? -/
def ClassSet.isSupported (mode : Mode) : ClassSet → Bool
  | .empty => true
  | .literal l => mode.allowsMember l
  | .range first last => mode.allowsMember first && mode.allowsMember last
  | .shorthand negated => mode.allowsShorthand negated
  | .named negated => mode.allowsNamed negated
  | .bracketed negated inner => mode.allowsBracketed negated && inner.isSupported mode
  | .union items => ClassSet.areSupported mode items
  | .joined _ left right => left.isSupported mode && right.isSupported mode
/-- May all parts of all items be what they are? -/
def ClassSet.areSupported (mode : Mode) : List ClassSet → Bool
  | [] => true
  | item :: rest => item.isSupported mode && ClassSet.areSupported mode rest
end

/-- The options stay as they are if the part in question may be there. -/
def Mode.keptIf (mode : Mode) (allowed : Bool) : Option Mode :=
  if allowed then some mode else none

mutual
/-- The options behind a pattern, if all of its parts may be what they are. -/
def modeAfter? (mode : Mode) : Pattern → Option Mode
  | .empty => some mode
  | .literal l => mode.keptIf (mode.allowsLiteral l)
  | .anything => mode.keptIf mode.allScripts
  | .edge => some mode
  | .wordEdge => mode.keptIf (!mode.allScripts)
  | .shorthand negated => mode.keptIf (mode.allowsShorthand negated)
  | .ofClass negated inner => mode.keptIf (mode.allowsBracketed negated && inner.isSupported mode)
  | .repetition inner => modeAfter? mode inner
  | .options settings => some (mode.after settings)
  | .group head inner => (modeAfter? (mode.after head.settings) inner).map fun _ => mode
  | .sequence items => modeAfterAll? mode items
  | .alternation branches => modeAfterAll? mode branches
/-- The options behind some parts, if all of them may be what they are. Options of one branch hold in the
next ones too. -/
def modeAfterAll? (mode : Mode) : List Pattern → Option Mode
  | [] => some mode
  | item :: rest => (modeAfter? mode item).bind fun mode => modeAfterAll? mode rest
end

/-! ### Whole patterns -/

/-- How deep the parts of a pattern may lie inside one another. -/
def depthLimit : Nat := 250

/-- May the expression be used as a pattern? Its parts do not lie too deep, no two groups have the same
name, and all parts may be what they are. -/
def isUsable (p : Pattern) : Bool :=
  decide (p.depth ≤ depthLimit) && decide p.groupNames.Nodup && (modeAfter? {} p).isSome

/-- Is the text a pattern? -/
def isPattern (cs : List Char) : Bool :=
  (parse? cs).any isUsable

end Pausepoint.Pattern
