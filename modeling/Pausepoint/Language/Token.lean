import Pausepoint.Decimal.Reading
import Pausepoint.Text.Blank

/-!
# Tokens of expressions

An expression is cut into tokens from left to right, before any of it is parsed: blanks are skipped, an
operator or bracket is one character, a string runs to its closing quote, and a number or a name is the
longest run of characters that may belong to one.

* `Token`, `LexFault` — what comes out, and what can be wrong;
* `readString` — the rest of a string after its opening quote;
* `tokenize` — all tokens of a text.

A number is a run of digits and points. With a point in it it is a float, otherwise a whole number of 64
bits, and a run that is neither is at fault as a whole.
-/

namespace Pausepoint.Language

open Pausepoint.Text

/-- A token of an expression. -/
inductive Token
  | int (n : Int64)
  | float (x : Float)
  /-- A string, with its escapes resolved. -/
  | string (s : String)
  | ident (name : String)
  | plus
  /-- The sign of subtraction and negation. -/
  | minus
  | star
  /-- The opening bracket of a list. -/
  | leftBracket
  /-- The closing bracket of a list. -/
  | rightBracket
  /-- The mark between list items. -/
  | comma
  deriving Inhabited

/-- What can be wrong with the text of an expression before it is parsed. -/
inductive LexFault
  /-- A string has no closing quote. -/
  | unterminatedString
  /-- A run of digits and points is no number. -/
  | badNumber (literal : String)
  /-- A character begins no token. -/
  | unexpectedChar (c : Char)
  deriving Repr, DecidableEq

/-- The wording of a lexical fault. -/
def LexFault.message : LexFault → String
  | .unterminatedString => "unterminated string"
  | .badNumber literal => s!"bad number `{literal}`"
  | .unexpectedChar c => s!"unexpected character `{c}`"

/-! ### Character classes -/

/-- May the character stand in a number? -/
def isNumberChar (c : Char) : Bool :=
  c.isDigit || c == '.'

/-- May the character begin a name? Names are ASCII. -/
def isNameStart (c : Char) : Bool :=
  c.isAlpha || c == '_'

/-- May the character stand in a name after its beginning? -/
def isNameChar (c : Char) : Bool :=
  c.isAlphanum || c == '_'

/-- Is the text a name? -/
def isName : List Char → Bool
  | [] => false
  | c :: rest => isNameStart c && rest.all isNameChar

/-- The token that is one character by itself. -/
def symbol? : Char → Option Token
  | '+' => some .plus
  | '-' => some .minus
  | '*' => some .star
  | '[' => some .leftBracket
  | ']' => some .rightBracket
  | ',' => some .comma
  | _ => none

/-! ### Lexemes -/

/-- The content of a string and what follows its closing quote. A backslash takes the next character as
it is, except that `n` stands for a line feed. -/
def readString : List Char → Option (List Char × List Char)
  | [] => none
  | ['\\'] => none
  | '\\' :: c :: rest =>
      (readString rest).map fun (content, after) => ((if c = 'n' then '\n' else c) :: content, after)
  | c :: rest =>
      if c = '"' then some ([], rest)
      else (readString rest).map fun (content, after) => (c :: content, after)

/-- The largest whole number of a script, which has 63 bits besides its sign. -/
def maxInt : Nat := 9223372036854775807

/-- The token of a run of digits and points. -/
def numberToken (literal : List Char) : Except LexFault Token :=
  if literal.contains '.' then
    match Decimal.readPlain literal with
    | some x => .ok (.float x)
    | none => .error (.badNumber (String.ofList literal))
  else
    match digitsValue maxInt literal with
    | .ok n => .ok (.int (Int64.ofNat n))
    | .error _ => .error (.badNumber (String.ofList literal))

/-- What follows a string is shorter than what followed its opening quote. -/
theorem length_of_readString {cs content rest : List Char} (h : readString cs = some (content, rest)) :
    rest.length < cs.length := by
  fun_induction readString cs generalizing content with
  | case1 => simp at h
  | case2 => simp at h
  | case3 c rest' ih =>
      obtain ⟨⟨content', after⟩, hr, he⟩ := Option.map_eq_some_iff.1 h
      simp only [Prod.mk.injEq] at he
      have := ih (he.2 ▸ hr)
      simp only [List.length_cons]; omega
  | case4 rest' _ _ =>
      simp only [Option.some.injEq, Prod.mk.injEq] at h
      simp [← h.2]
  | case5 c rest' _ _ _ ih =>
      obtain ⟨⟨content', after⟩, hr, he⟩ := Option.map_eq_some_iff.1 h
      simp only [Prod.mk.injEq] at he
      have := ih (he.2 ▸ hr)
      simp only [List.length_cons]; omega

/-- Dropping a run makes a list no longer. -/
theorem length_dropWhile_le (p : Char → Bool) (cs : List Char) :
    (cs.dropWhile p).length ≤ cs.length :=
  (List.dropWhile_sublist p).length_le

/-! ### The tokenizer -/

/-- The tokens of a text. -/
def tokenize : List Char → Except LexFault (List Token)
  | [] => .ok []
  | c :: rest =>
      if isBlank c then tokenize rest
      else if let some token := symbol? c then
        (tokenize rest).map (token :: ·)
      else if c = '"' then
        match _h : readString rest with
        | none => .error .unterminatedString
        | some (content, after) => (tokenize after).map (.string (String.ofList content) :: ·)
      else if c.isDigit then
        match numberToken (c :: rest.takeWhile isNumberChar) with
        | .error fault => .error fault
        | .ok token => (tokenize (rest.dropWhile isNumberChar)).map (token :: ·)
      else if isNameStart c then
        let name := String.ofList (c :: rest.takeWhile isNameChar)
        (tokenize (rest.dropWhile isNameChar)).map (.ident name :: ·)
      else .error (.unexpectedChar c)
termination_by cs => cs.length
decreasing_by
  all_goals simp only [List.length_cons]
  · omega
  · omega
  · have := length_of_readString ‹_›; omega
  · have := length_dropWhile_le isNumberChar rest; omega
  · have := length_dropWhile_le isNameChar rest; omega

end Pausepoint.Language
