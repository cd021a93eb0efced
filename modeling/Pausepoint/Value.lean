import Pausepoint.Text.Document

/-!
# Script values

The values a script computes with and a variable view shows.

* `Value` — the values; whole numbers have 64 bits, and a map keeps its entries sorted by key;
* `Entries` — sorted names with values, the content of a map and of a scope;
* `Value.display` — the text that printing gives, which for a container is a summary of its size;
* `Value.summary` — the text a variable view shows, which also names the type;
* `Value.children` — the variables inside a container;
* `Value.same` — equality as values: no container is compared by identity, and the float that is no
  number differs from itself.

Sorting is by code points, which is also the order of the UTF-8 bytes.
-/

namespace Pausepoint

/-- A value of the script language. -/
inductive Value
  | null
  | bool (b : Bool)
  | int (n : Int64)
  | float (x : Float)
  | char (c : Char)
  | string (s : String)
  | list (items : List Value)
  /-- Named values, sorted by name. -/
  | map (entries : List (String × Value))
  deriving Inhabited

/-- Names with values, sorted by name, each name once. -/
abbrev Entries := List (String × Value)

/-! ### Entries -/

/-- Binds a name, in place of its old value if it has one. -/
def Entries.insert (name : String) (value : Value) : Entries → Entries
  | [] => [(name, value)]
  | (n, v) :: rest =>
      if name < n then (name, value) :: (n, v) :: rest
      else if name = n then (name, value) :: rest
      else (n, v) :: insert name value rest

/-- The value bound to a name. -/
def Entries.get? (name : String) : Entries → Option Value
  | [] => none
  | (n, v) :: rest => if n = name then some v else get? name rest

/-- Entries from pairs in any order; of several with one name the last one counts. -/
def Entries.ofList (pairs : List (String × Value)) : Entries :=
  pairs.foldl (fun entries pair => Entries.insert pair.1 pair.2 entries) []

/-! ### Texts -/

namespace Value

/-- The name of a value's type. -/
def typeName : Value → String
  | .null => "null"
  | .bool _ => "bool"
  | .int _ => "int"
  | .float _ => "float"
  | .char _ => "char"
  | .string _ => "string"
  | .list _ => "list"
  | .map _ => "map"

/-- The text that printing a value gives. -/
def display : Value → String
  | .null => "null"
  | .bool true => "true"
  | .bool false => "false"
  | .int n => toString n.toInt
  | .float x => Decimal.Layout.display.text x
  | .char c => c.toString
  | .string s => s
  | .list items => "list[" ++ toString items.length ++ "]"
  | .map entries => "map\x7b" ++ toString entries.length ++ "\x7d"

/-- The text a variable view shows: a size for containers, the type behind other values. -/
def summary : Value → String
  | .null => "null"
  | .list items => display (.list items)
  | .map entries => display (.map entries)
  | v => v.display ++ " (" ++ v.typeName ++ ")"

def isNull : Value → Bool
  | .null => true
  | _ => false

end Value

/-- A named value in a variable view. -/
structure Variable where
  /-- The name it is shown under. -/
  name : String
  value : Value
  deriving Inhabited

namespace Value

/-- The variables inside a container: list items under their index in brackets, map entries under
their key. -/
def children : Value → List Variable
  | .list items => items.mapIdx fun i v => ⟨"[" ++ toString i ++ "]", v⟩
  | .map entries => entries.map fun entry => ⟨entry.1, entry.2⟩
  | _ => []

/-- Has the value anything inside to show? -/
def hasChildren (v : Value) : Bool :=
  !v.children.isEmpty

/-! ### Equality -/

mutual

/-- Same type and same content. -/
def same : Value → Value → Bool
  | .null, .null => true
  | .bool a, .bool b => a == b
  | .int a, .int b => a == b
  | .float a, .float b => a == b
  | .char a, .char b => a == b
  | .string a, .string b => a == b
  | .list as, .list bs => sameItems as bs
  | .map as, .map bs => sameEntries as bs
  | _, _ => false

/-- Equal sequences. -/
def sameItems : List Value → List Value → Bool
  | [], [] => true
  | a :: as, b :: bs => same a b && sameItems as bs
  | _, _ => false

/-- Equal entries. -/
def sameEntries : List (String × Value) → List (String × Value) → Bool
  | [], [] => true
  | (k, a) :: as, (l, b) :: bs => k == l && same a b && sameEntries as bs
  | _, _ => false

end

/-! ### Documents -/

mutual

/-- A value as a document. The document does not tell a character from a text. -/
def document : Value → Text.Document
  | .null => .null
  | .bool b => .bool b
  | .int n => .integer n.toInt
  | .float x => .decimal x
  | .char c => .string c.toString
  | .string s => .string s
  | .list items => .array (itemDocuments items)
  | .map entries => .object (entryDocuments entries)

def itemDocuments : List Value → List Text.Document
  | [] => []
  | v :: rest => v.document :: itemDocuments rest

/-- The entries of a map as members. -/
def entryDocuments : List (String × Value) → List (String × Text.Document)
  | [] => []
  | (k, v) :: rest => (k, v.document) :: entryDocuments rest

end

end Value

/-- A variable as a document: its name and its value. -/
def Variable.document (v : Variable) : Text.Document :=
  .object [("name", .string v.name), ("value", v.value.document)]

end Pausepoint
