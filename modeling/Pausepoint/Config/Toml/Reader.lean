import Pausepoint.Config.Toml.Scalar

/-!
# Reading TOML documents

A document is read line by line into its tree. Whether it can be read is all that matters of a malformed
one, so a reader gives an item and what follows it, or nothing.

* `readKey` — a key, with or without dots, of a bounded number of parts;
* `readItem` and its companions — values, whose nesting is bounded;
* `Draft` — the tree so far and the table that the last header opened;
* `parse?` — a whole document.

`readItem` and its companions recurse on a budget of calls. Each call takes a character or is followed
by one that does, so twice the length of the text is enough.
-/

namespace Pausepoint.Toml

/-- May the character stand in a key without quotes? -/
def isKeyChar (c : Char) : Bool :=
  c.isAlphanum || c = '-' || c = '_'

/-- The rest of a comment, from its line ending on. -/
def skipComment : List Char → Option (List Char)
  | [] => some []
  | '\n' :: rest => some ('\n' :: rest)
  | '\r' :: '\n' :: rest => some ('\n' :: rest)
  | c :: rest => if isPlain c then skipComment rest else none

/-- Skips blanks, line endings and comments. -/
def skipFiller (comment : Bool) : List Char → Option (List Char)
  | [] => some []
  | '\n' :: rest => skipFiller false rest
  | '\r' :: '\n' :: rest => skipFiller false rest
  | c :: rest =>
      if comment then if isPlain c then skipFiller true rest else none
      else if isSpace c then skipFiller false rest
      else if c = '#' then skipFiller true rest
      else some (c :: rest)

/-- What follows the end of a line: blanks, perhaps a comment, and a line ending or the end of the text. -/
def endLine (cs : List Char) : Option (List Char) :=
  let ending := match cs.dropWhile isSpace with
    | '#' :: rest => skipComment rest
    | rest => some rest
  match ending with
  | some [] => some []
  | some ('\n' :: rest) => some rest
  | some ('\r' :: '\n' :: rest) => some rest
  | _ => none

/-- A key without dots, and what follows it. -/
def readSimpleKey (cs : List Char) : Option (String × List Char) :=
  match cs with
  | '"' :: rest => (basicString rest).map fun (s, rest) => (String.ofList s, rest)
  | '\'' :: rest => (literalString rest).map fun (s, rest) => (String.ofList s, rest)
  | _ =>
      let key := cs.takeWhile isKeyChar
      if key.isEmpty then none else some (String.ofList key, cs.dropWhile isKeyChar)

/-- How deep values may be nested, and of how many parts a key may be made. -/
def maxNesting : Nat := 79

/-- At most so many keys between dots, and what follows them and the blanks around them. -/
def readKeyFrom : Nat → List Char → Option (List String × List Char)
  | 0, _ => none
  | limit + 1, cs => do
      let (key, rest) ← readSimpleKey (cs.dropWhile isSpace)
      match rest.dropWhile isSpace with
      | '.' :: rest => do
          let (keys, rest) ← readKeyFrom limit rest
          return (key :: keys, rest)
      | rest => return ([key], rest)

/-- A key as the path of its parts, and what follows it. -/
def readKey (cs : List Char) : Option (List String × List Char) :=
  readKeyFrom maxNesting cs

mutual

/-- Reads a value. -/
def readItem : Nat → Nat → List Char → Option (Item × List Char)
  | 0, _, _ => none
  | budget + 1, depth, cs =>
      match cs with
      | '"' :: '"' :: '"' :: rest => text (longBasicString false (dropLineEnding rest))
      | '"' :: rest => text (basicString rest)
      | '\'' :: '\'' :: '\'' :: rest => text (longLiteralString (dropLineEnding rest))
      | '\'' :: rest => text (literalString rest)
      | '[' :: rest => if depth = 0 then none else readArray budget (depth - 1) [] rest
      | '\x7b' :: rest =>
          if depth = 0 then none
          else match rest.dropWhile isSpace with
            | '\x7d' :: rest => some (.inlineTable [], rest)
            | rest => readInline budget (depth - 1) [] rest
      | _ =>
          let (scalar, rest) := scalarText cs
          (readScalar scalar).map fun item => (item, rest)
where
  text (r : StringReading) : Option (Item × List Char) :=
    r.map fun (s, rest) => (.string (String.ofList s), rest)

/-- Reads the rest of an array behind the items already read, newest first. -/
def readArray : Nat → Nat → List Item → List Char → Option (Item × List Char)
  | 0, _, _, _ => none
  | budget + 1, depth, done, cs =>
      match skipFiller false cs with
      | none => none
      | some (']' :: rest) => some (.array done.reverse, rest)
      | some cs =>
          match readItem budget depth cs with
          | none => none
          | some (item, rest) =>
              match skipFiller false rest with
              | some (',' :: rest) => readArray budget depth (item :: done) rest
              | some (']' :: rest) => some (.array (item :: done).reverse, rest)
              | _ => none

/-- Reads the rest of an inline table, from its next key on. -/
def readInline : Nat → Nat → Members → List Char → Option (Item × List Char)
  | 0, _, _, _ => none
  | budget + 1, depth, members, cs =>
      match readKey cs with
      | some (path, '=' :: rest) =>
          match readItem budget depth (rest.dropWhile isSpace) with
          | none => none
          | some (item, rest) =>
              match insertPath path item members, rest.dropWhile isSpace with
              | some members, ',' :: rest => readInline budget depth members rest
              | some members, '\x7d' :: rest => some (.inlineTable members, rest)
              | _, _ => none
      | _ => none

end

/-- Reads a value of a document. -/
def readValue (cs : List Char) : Option (Item × List Char) :=
  readItem (2 * cs.length + 2) maxNesting cs

/-! ### Lines -/

/-- A document that is being read. -/
structure Draft where
  /-- The tree without the table that is being written. -/
  root : Members := []
  /-- The path of that table, empty for the tree itself. -/
  path : List String := []
  /-- Is it one of several under its path? -/
  several : Bool := false
  /-- What it holds. -/
  members : Members := []
  deriving Inhabited

/-- Puts the finished table at its place. -/
def place (several : Bool) (key : String) (members : Members) (_ : Origin) (parent : Members) :
    Option (Unit × Members) :=
  if several then
    match parent.lookup key with
    | some (.tables older) => some ((), replace key (.tables (members :: older)) parent)
    | _ => none
  else some ((), parent ++ [(key, .table .defined members)])

/-- The tree with the table that is being written. -/
def Draft.finish (d : Draft) : Option Members :=
  match d.path.getLast? with
  | none => some d.members
  | some key =>
      (descend false (place d.several key d.members) d.path.dropLast .defined d.root).map Prod.snd

/-- Takes a table that may still be defined out of its parent; a missing one is empty. -/
def takeTable (key : String) (_ : Origin) (parent : Members) : Option (Members × Members) :=
  match parent.lookup key with
  | none => some ([], parent)
  | some (.table .implied members) => some (members, remove key parent)
  | some _ => none

/-- Makes sure that a key may hold several tables. -/
def openTables (key : String) (_ : Origin) (parent : Members) : Option (Members × Members) :=
  match parent.lookup key with
  | none => some ([], parent ++ [(key, .tables [])])
  | some (.tables _) => some ([], parent)
  | some _ => none

/-- Begins the table of a header. -/
def Draft.openTable (d : Draft) (several : Bool) (path : List String) : Option Draft := do
  let root ← d.finish
  let key ← path.getLast?
  let change := if several then openTables key else takeTable key
  let (members, root) ← descend false change path.dropLast .defined root
  return { root, path, several, members }

/-- Reads one line into a document; gives what follows the line. -/
def readLine (d : Draft) (cs : List Char) : Option (Draft × List Char) :=
  match cs.dropWhile isSpace with
  | [] => some (d, [])
  | '#' :: _ | '\n' :: _ | '\r' :: _ => (endLine cs).map fun rest => (d, rest)
  | '[' :: '[' :: rest =>
      match readKey rest with
      | some (path, ']' :: ']' :: rest) => do
          let rest ← endLine rest
          let d ← d.openTable true path
          return (d, rest)
      | _ => none
  | '[' :: rest =>
      match readKey rest with
      | some (path, ']' :: rest) => do
          let rest ← endLine rest
          let d ← d.openTable false path
          return (d, rest)
      | _ => none
  | cs =>
      match readKey cs with
      | some (path, '=' :: rest) => do
          let (item, rest) ← readValue (rest.dropWhile isSpace)
          let rest ← endLine rest
          let members ← insertPath path item d.members
          return ({ d with members }, rest)
      | _ => none

/-- Reads at most so many lines. -/
def readLines : Nat → Draft → List Char → Option Draft
  | _, d, [] => some d
  | 0, _, _ :: _ => none
  | limit + 1, d, cs =>
      match readLine d cs with
      | some (d, rest) => readLines limit d rest
      | none => none

/-- The tree of a document, if it is well formed; a byte order mark in front of it is no part of it. -/
def parse? (source : String) : Option Members :=
  let cs := match source.toList with
    | '\uFEFF' :: rest => rest
    | cs => cs
  (readLines (cs.length + 1) {} cs).bind Draft.finish

end Pausepoint.Toml
