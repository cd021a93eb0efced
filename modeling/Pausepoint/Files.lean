/-!
# Files

The files below one directory, by path, as far as reading them goes. A path is walked component by
component from that directory; outside of it there are directories above it and nothing else.

* `FileTree` — the files, with their bytes;
* `pathFault?` — what no path may be, whatever the files are;
* `FileTree.read` — the text at a path, or why there is none;
* `joinPath`, `parentPath` — a path below a directory, and the directory of a path.
-/

namespace Pausepoint

/-- Why a path gives no text. -/
inductive ReadFault
  | notFound
  | isDirectory
  /-- A file stands where a directory should. -/
  | notDirectory
  /-- It may not be read. -/
  | denied
  /-- The path, or a name in it that was looked for, is too long. -/
  | tooLong
  /-- The path holds a character that no path can hold. -/
  | nulInPath
  /-- The bytes are no UTF-8 text. -/
  | notText
  deriving Repr, DecidableEq, Inhabited

def ReadFault.message : ReadFault → String
  | .notFound => "No such file or directory (os error 2)"
  | .isDirectory => "Is a directory (os error 21)"
  | .notDirectory => "Not a directory (os error 20)"
  | .denied => "Permission denied (os error 13)"
  | .tooLong => "File name too long (os error 36)"
  | .nulInPath => "file name contained an unexpected NUL byte"
  | .notText => "stream did not contain valid UTF-8"

/-- The components of a path. -/
abbrev Components := List String

/-- Files with their bytes, by the components of their paths. -/
structure FileTree where
  files : List (Components × ByteArray) := []
  deriving Inhabited

/-- The components that name something: neither empty nor the directory itself. -/
def components (path : String) : Components :=
  (path.splitOn "/").filter fun c => c ≠ "" && c ≠ "."

/-- A path seen from a directory; an absolute path stays what it is. -/
def joinPath (directory path : String) : String :=
  if directory.isEmpty || path.startsWith "/" then path
  else if directory.endsWith "/" then directory ++ path
  else directory ++ "/" ++ path

/-- The directory that a path lies in, empty for the current one. -/
def parentPath (path : String) : String :=
  let absolute := path.startsWith "/"
  let inner := "/".intercalate (components path).dropLast
  if absolute then "/" ++ inner else inner

/-- How many bytes a name in a path may have. -/
def longestName : Nat := 255

/-- How many bytes a path may have. -/
def longestPath : Nat := 4095

/-- What is wrong with a path by itself. -/
def pathFault? (path : String) : Option ReadFault :=
  if path.toList.contains '\x00' then some .nulInPath
  else if longestPath < path.utf8ByteSize then some .tooLong
  else none

namespace FileTree

/-- The files at the given paths. -/
def ofList (files : List (String × ByteArray)) : FileTree :=
  ⟨files.map fun (path, bytes) => (components path, bytes)⟩

/-- The bytes of a file. -/
def file? (t : FileTree) (path : Components) : Option ByteArray :=
  t.files.lookup path

/-- Is there a directory? The root is always one, and every file has those above it. -/
def isDirectory (t : FileTree) (path : Components) : Bool :=
  path.isEmpty || t.files.any fun entry =>
    path.isPrefixOf entry.1 && decide (path.length < entry.1.length)

/-- AnsweringMove along names outside of the tree, where no name leads anywhere but that of a directory above. -/
def walkOutside : List String → ReadFault
  | [] => .isDirectory
  | name :: rest =>
      if name = "" || name = "." || name = ".." then walkOutside rest
      else if longestName < name.utf8ByteSize then .tooLong
      else .notFound

/-- AnsweringMove from a directory along the names of a path. -/
def walk (t : FileTree) (directory : Components) : List String → Except ReadFault ByteArray
  | [] => .error .isDirectory
  | name :: rest =>
      if name = "" || name = "." then walk t directory rest
      else if name = ".." then
        if directory.isEmpty then .error (walkOutside rest) else walk t directory.dropLast rest
      else if longestName < name.utf8ByteSize then .error .tooLong
      else
        match t.file? (directory ++ [name]), rest with
        | some bytes, [] => .ok bytes
        | some _, _ :: _ => .error .notDirectory
        | none, _ =>
            if t.isDirectory (directory ++ [name]) then walk t (directory ++ [name]) rest
            else .error .notFound

def readBytes (t : FileTree) (path : String) : Except ReadFault ByteArray :=
  match pathFault? path with
  | some fault => .error fault
  | none =>
      if path.isEmpty then .error .notFound
      else if path.startsWith "/" then .error (walkOutside (path.splitOn "/"))
      else t.walk [] (path.splitOn "/")

def read (t : FileTree) (path : String) : Except ReadFault String :=
  match t.readBytes path with
  | .error fault => .error fault
  | .ok bytes =>
      match String.fromUTF8? bytes with
      | some text => .ok text
      | none => .error .notText

end FileTree

end Pausepoint
