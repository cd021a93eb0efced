import Pausepoint.Decimal.Layout
import Pausepoint.Text.Quoted

/-!
# Documents

A document is a JSON value. `Document.text` writes one without blanks, the members of an object in the
order in which they are listed.
-/

namespace Pausepoint.Text

/-- A JSON value. -/
inductive Document
  | null
  | bool (b : Bool)
  | integer (n : Int)
  /-- A floating-point number; one that is not finite is written as null. -/
  | decimal (x : Float)
  | string (s : String)
  | array (items : List Document)
  /-- Named members, in order. -/
  | object (members : List (String × Document))

mutual

/-- The compact text of a document. -/
def Document.text : Document → String
  | .null => "null"
  | .bool true => "true"
  | .bool false => "false"
  | .integer n => toString n
  | .decimal x => Decimal.Layout.document.text x
  | .string s => quote s
  | .array items => "[" ++ ",".intercalate (itemTexts items) ++ "]"
  | .object members => "\x7b" ++ ",".intercalate (memberTexts members) ++ "\x7d"

/-- The texts of the items of a sequence. -/
def itemTexts : List Document → List String
  | [] => []
  | item :: rest => item.text :: itemTexts rest

/-- The texts of the members of an object. -/
def memberTexts : List (String × Document) → List String
  | [] => []
  | (name, member) :: rest => (quote name ++ ":" ++ member.text) :: memberTexts rest

end

/-- A value that may be missing; a missing one is null. -/
def Document.ofOption {α : Type} (f : α → Document) : Option α → Document
  | none => .null
  | some a => f a

end Pausepoint.Text
