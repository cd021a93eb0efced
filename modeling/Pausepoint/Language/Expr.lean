import Pausepoint.Language.Token
import Pausepoint.Value

/-!
# Expressions

Expressions have lists, negation, multiplication, and addition with subtraction, in falling order of how
tightly they bind; the binary operators group to the left. There are no parentheses, and a list has no
comma after its last item.

* `Expr`, `ExprFault` — the trees, and what can be wrong with a token list;
* `readExpr` and its companions — recursive descent, one function per level of binding;
* `parseExpr` — the whole of a text as one expression.

Each function of the descent either takes a token or goes one level down, so the depth of the calls is
bounded by a multiple of the number of tokens. `budget` is that bound; with it the fault `unfinished`
does not arise.
-/

namespace Pausepoint.Language

/-- The binary operators. -/
inductive BinaryOp
  /-- Addition; also joins texts and lists. -/
  | add
  | sub
  | mul
  deriving Repr, DecidableEq

/-- An expression. -/
inductive Expr
  | literal (v : Value)
  | var (name : String)
  | list (items : List Expr)
  | neg (operand : Expr)
  | binary (op : BinaryOp) (lhs rhs : Expr)
  deriving Inhabited

/-- What can be wrong with an expression. -/
inductive ExprFault
  /-- The text has no tokens. -/
  | lexical (fault : LexFault)
  | unexpected (token : Token)
  /-- The tokens end where an operand should stand. -/
  | missingOperand
  /-- A list item is followed neither by a comma nor by the end of the list. -/
  | unseparated
  /-- There are tokens after the expression. -/
  | trailing (text : String)
  /-- The bound on the work was too small. -/
  | unfinished

/-- The word for a kind of token. -/
def Token.word : Token → String
  | .int _ => "Int"
  | .float _ => "Float"
  | .string _ => "Str"
  | .ident _ => "Ident"
  | .plus => "Plus"
  | .minus => "Minus"
  | .star => "Star"
  | .leftBracket => "LBracket"
  | .rightBracket => "RBracket"
  | .comma => "Comma"

def ExprFault.message : ExprFault → String
  | .lexical fault => fault.message
  | .unexpected token => s!"unexpected {token.word}"
  | .missingOperand => "expected an expression"
  | .unseparated => "expected `,` or `]`"
  | .trailing text => s!"trailing input in `{text}`"
  | .unfinished => "expression too long"

/-- A name as an operand: three of them are constants. -/
def Expr.ofName (name : String) : Expr :=
  if name = "true" then .literal (.bool true)
  else if name = "false" then .literal (.bool false)
  else if name = "null" then .literal .null
  else .var name

/-! ### Recursive descent -/

mutual

/-- Reads a sum: terms between signs of addition and subtraction. -/
def readExpr : Nat → List Token → Except ExprFault (Expr × List Token)
  | 0, _ => .error .unfinished
  | budget + 1, tokens => do
      let (first, rest) ← readTerm budget tokens
      readSums budget first rest

/-- Reads the further terms of a sum whose beginning is `lhs`. -/
def readSums : Nat → Expr → List Token → Except ExprFault (Expr × List Token)
  | 0, _, _ => .error .unfinished
  | budget + 1, lhs, .plus :: tokens => do
      let (rhs, rest) ← readTerm budget tokens
      readSums budget (.binary .add lhs rhs) rest
  | budget + 1, lhs, .minus :: tokens => do
      let (rhs, rest) ← readTerm budget tokens
      readSums budget (.binary .sub lhs rhs) rest
  | _ + 1, lhs, tokens => .ok (lhs, tokens)

/-- Reads a product: factors between signs of multiplication. -/
def readTerm : Nat → List Token → Except ExprFault (Expr × List Token)
  | 0, _ => .error .unfinished
  | budget + 1, tokens => do
      let (first, rest) ← readFactor budget tokens
      readProducts budget first rest

/-- Reads the further factors of a product whose beginning is `lhs`. -/
def readProducts : Nat → Expr → List Token → Except ExprFault (Expr × List Token)
  | 0, _, _ => .error .unfinished
  | budget + 1, lhs, .star :: tokens => do
      let (rhs, rest) ← readFactor budget tokens
      readProducts budget (.binary .mul lhs rhs) rest
  | _ + 1, lhs, tokens => .ok (lhs, tokens)

/-- Reads a constant, a variable, a negation or a list. -/
def readFactor : Nat → List Token → Except ExprFault (Expr × List Token)
  | 0, _ => .error .unfinished
  | _ + 1, [] => .error .missingOperand
  | _ + 1, .int n :: rest => .ok (.literal (.int n), rest)
  | _ + 1, .float x :: rest => .ok (.literal (.float x), rest)
  | _ + 1, .string s :: rest => .ok (.literal (.string s), rest)
  | _ + 1, .ident name :: rest => .ok (.ofName name, rest)
  | budget + 1, .minus :: tokens => do
      let (operand, rest) ← readFactor budget tokens
      return (.neg operand, rest)
  | _ + 1, .leftBracket :: .rightBracket :: rest => .ok (.list [], rest)
  | budget + 1, .leftBracket :: tokens => do
      let (items, rest) ← readItems budget tokens
      return (.list items, rest)
  | _ + 1, token :: _ => .error (.unexpected token)

/-- Reads the items of a list, at least one, and its closing bracket. -/
def readItems : Nat → List Token → Except ExprFault (List Expr × List Token)
  | 0, _ => .error .unfinished
  | budget + 1, tokens => do
      let (item, rest) ← readExpr budget tokens
      match rest with
      | .comma :: rest => do
          let (items, rest) ← readItems budget rest
          return (item :: items, rest)
      | .rightBracket :: rest => return ([item], rest)
      | _ => .error .unseparated

end

/-- Calls nest at most this deep on a token list. -/
def budget (tokens : List Token) : Nat :=
  4 * tokens.length + 4

/-- A token list as one expression. -/
def parseTokens (tokens : List Token) : Except ExprFault (Expr × List Token) :=
  readExpr (budget tokens) tokens

/-- A text as one expression, up to blanks around it. -/
def parseExpr (text : List Char) : Except ExprFault Expr :=
  let text := Text.trim text
  match tokenize text with
  | .error fault => .error (.lexical fault)
  | .ok tokens =>
      match parseTokens tokens with
      | .error fault => .error fault
      | .ok (e, []) => .ok e
      | .ok (_, _ :: _) => .error (.trailing (String.ofList text))

end Pausepoint.Language
