import Pausepoint.Config.Toml.Item
import Pausepoint.Decimal.Reading
import Pausepoint.Text.Hex

/-!
# Scalars of TOML

Strings in their four spellings, whole numbers, floating-point numbers, truth values, dates and times.
Every reader gives what follows the scalar, or nothing where the text is malformed.
-/

namespace Pausepoint.Toml

open Pausepoint.Text

/-- A blank inside a line. -/
def isSpace (c : Char) : Bool :=
  c = ' ' || c = '\t'

/-- May the character stand in a comment, or in a string as it is? Control characters may not, the tab
excepted. -/
def isPlain (c : Char) : Bool :=
  c = '\t' || (decide (0x20 ≤ c.toNat) && c.toNat != 0x7F)

/-! ### Strings -/

/-- The character of an escape of one letter. -/
def escape? : Char → Option Char
  | 'b' => some '\x08'
  | 't' => some '\t'
  | 'n' => some '\n'
  | 'f' => some '\x0c'
  | 'r' => some '\r'
  | '"' => some '"'
  | '\\' => some '\\'
  | _ => none

/-- A string, and what follows it. -/
abbrev StringReading := Option (List Char × List Char)

/-- Puts a character in front of a string. -/
def StringReading.cons (c : Char) (r : StringReading) : StringReading :=
  r.map fun (s, rest) => (c :: s, rest)

/-- The rest of a string between double quotes. -/
def basicString : List Char → StringReading
  | [] => none
  | '\\' :: 'u' :: a :: b :: c :: d :: rest =>
      match (hexNumber? [a, b, c, d]).bind charOf? with
      | some x => StringReading.cons x (basicString rest)
      | none => none
  | '\\' :: 'U' :: a :: b :: c :: d :: e :: f :: g :: h :: rest =>
      match (hexNumber? [a, b, c, d, e, f, g, h]).bind charOf? with
      | some x => StringReading.cons x (basicString rest)
      | none => none
  | '\\' :: c :: rest =>
      match escape? c with
      | some x => StringReading.cons x (basicString rest)
      | none => none
  | '"' :: rest => some ([], rest)
  | c :: rest => if isPlain c && c != '\\' then StringReading.cons c (basicString rest) else none

/-- The rest of a string between single quotes. -/
def literalString : List Char → StringReading
  | [] => none
  | '\'' :: rest => some ([], rest)
  | c :: rest => if isPlain c then StringReading.cons c (literalString rest) else none

/-- Does the text begin with a line ending, up to blanks? -/
def endsLine (cs : List Char) : Bool :=
  match cs.dropWhile isSpace with
  | '\n' :: _ | '\r' :: '\n' :: _ => true
  | _ => false

/-- The rest of a string between triple double quotes. A backslash at the end of a line takes all blanks
and line endings after it away, which is what `skipping` does. -/
def longBasicString (skipping : Bool) : List Char → StringReading
  | [] => none
  | '\r' :: '\n' :: rest =>
      if skipping then longBasicString true rest
      else StringReading.cons '\n' (longBasicString false rest)
  | '\n' :: rest =>
      if skipping then longBasicString true rest
      else StringReading.cons '\n' (longBasicString false rest)
  | '\\' :: 'u' :: a :: b :: c :: d :: rest =>
      match (hexNumber? [a, b, c, d]).bind charOf? with
      | some x => StringReading.cons x (longBasicString false rest)
      | none => none
  | '\\' :: 'U' :: a :: b :: c :: d :: e :: f :: g :: h :: rest =>
      match (hexNumber? [a, b, c, d, e, f, g, h]).bind charOf? with
      | some x => StringReading.cons x (longBasicString false rest)
      | none => none
  | '\\' :: '\n' :: rest => longBasicString true rest
  | '\\' :: '\r' :: '\n' :: rest => longBasicString true rest
  | '\\' :: c :: rest =>
      if isSpace c && endsLine rest then longBasicString true rest
      else match escape? c with
        | some x => StringReading.cons x (longBasicString false rest)
        | none => none
  | '"' :: '"' :: '"' :: '"' :: '"' :: rest => some (['"', '"'], rest)
  | '"' :: '"' :: '"' :: '"' :: rest => some (['"'], rest)
  | '"' :: '"' :: '"' :: rest => some ([], rest)
  | c :: rest =>
      if skipping && isSpace c then longBasicString true rest
      else if isPlain c && c != '\\' then StringReading.cons c (longBasicString false rest)
      else none

/-- The rest of a string between triple single quotes. -/
def longLiteralString : List Char → StringReading
  | [] => none
  | '\r' :: '\n' :: rest => StringReading.cons '\n' (longLiteralString rest)
  | '\n' :: rest => StringReading.cons '\n' (longLiteralString rest)
  | '\'' :: '\'' :: '\'' :: '\'' :: '\'' :: rest => some (['\'', '\''], rest)
  | '\'' :: '\'' :: '\'' :: '\'' :: rest => some (['\''], rest)
  | '\'' :: '\'' :: '\'' :: rest => some ([], rest)
  | c :: rest => if isPlain c then StringReading.cons c (longLiteralString rest) else none

/-- A long string may begin with a line ending, which is no part of it. -/
def dropLineEnding : List Char → List Char
  | '\r' :: '\n' :: rest => rest
  | '\n' :: rest => rest
  | cs => cs

/-! ### Numbers -/

/-- Digits with single underscores between them, without the underscores. -/
def joinedDigits? (isDigit : Char → Bool) : List Char → Option (List Char)
  | [] => none
  | [c] => if isDigit c then some [c] else none
  | c :: '_' :: rest =>
      if isDigit c then (joinedDigits? isDigit rest).map (c :: ·) else none
  | c :: rest => if isDigit c then (joinedDigits? isDigit rest).map (c :: ·) else none

/-- The digits of a decimal number without a sign; no zero stands in front of other digits. -/
def decimalDigits? (cs : List Char) : Option (List Char) :=
  match joinedDigits? Char.isDigit cs with
  | some ['0'] => some ['0']
  | some ('0' :: _) => none
  | ds => ds

/-- The value of digits to a base. -/
def digitsToBase (base : Nat) (cs : List Char) : Nat :=
  cs.foldl (fun acc c => base * acc + (hexValue? c).getD 0) 0

/-- A whole number if it has 64 bits. -/
def integer? (n : Int) : Option Item :=
  if -9223372036854775808 ≤ n ∧ n ≤ 9223372036854775807 then some (.integer n) else none

/-- A whole number: decimal with a sign, or to one of three other bases without. -/
def readInteger : List Char → Option Item
  | '0' :: 'x' :: cs => based 16 (fun c => (hexValue? c).isSome) cs
  | '0' :: 'o' :: cs => based 8 (fun c => decide ('0' ≤ c ∧ c ≤ '7')) cs
  | '0' :: 'b' :: cs => based 2 (fun c => c = '0' || c = '1') cs
  | '-' :: cs => (decimalDigits? cs).bind fun ds => integer? (-(digitsToBase 10 ds : Int))
  | '+' :: cs => (decimalDigits? cs).bind fun ds => integer? (digitsToBase 10 ds)
  | cs => (decimalDigits? cs).bind fun ds => integer? (digitsToBase 10 ds)
where
  /-- A number to a base, from its digits. -/
  based (base : Nat) (isDigit : Char → Bool) (cs : List Char) : Option Item :=
    (joinedDigits? isDigit cs).bind fun ds => integer? (digitsToBase base ds)

/-- Is the character the mark of an exponent? -/
def isExponentMark (c : Char) : Bool :=
  c = 'e' || c = 'E'

/-- The exponent of a number, with its mark; zeros may stand in front. -/
def exponentText? : List Char → Option (List Char)
  | [] => some []
  | mark :: '-' :: cs => (joinedDigits? Char.isDigit cs).map fun ds => mark :: '-' :: ds
  | mark :: '+' :: cs => (joinedDigits? Char.isDigit cs).map fun ds => mark :: ds
  | mark :: cs => (joinedDigits? Char.isDigit cs).map fun ds => mark :: ds

/-- A floating-point number without a sign: whole digits, then a fraction or an exponent or both. -/
def unsignedFloat? (cs : List Char) : Option Float :=
  let mantissa := cs.takeWhile fun c => !isExponentMark c
  let exponent := cs.dropWhile fun c => !isExponentMark c
  let whole := mantissa.takeWhile (· ≠ '.')
  let fraction := mantissa.dropWhile (· ≠ '.')
  if fraction.isEmpty && exponent.isEmpty then none
  else do
    let whole ← decimalDigits? whole
    let fraction ← match fraction with
      | [] => some []
      | _ :: ds => (joinedDigits? Char.isDigit ds).map ('.' :: ·)
    let exponent ← exponentText? exponent
    Decimal.readSigned (whole ++ fraction ++ exponent)

/-- Infinity, or what is no number, by name. -/
def namedFloat? (cs : List Char) : Option Float :=
  if cs = "inf".toList then some (1.0 / 0.0)
  else if cs = "nan".toList then some (0.0 / 0.0)
  else none

/-- A floating-point number without a minus sign. Digits of a number too large for any double are
malformed; with a minus sign they are not. -/
def positiveFloat? (cs : List Char) : Option Float :=
  match namedFloat? cs with
  | some x => some x
  | none => (unsignedFloat? cs).bind fun x => if x.isInf then none else some x

/-- A floating-point number with an optional sign. -/
def readFloat : List Char → Option Item
  | '-' :: cs => ((namedFloat? cs).or (unsignedFloat? cs)).map fun x => .float (-x)
  | '+' :: cs => (positiveFloat? cs).map .float
  | cs => (positiveFloat? cs).map .float

/-! ### Dates and times -/

/-- A number of exactly so many digits, and what follows. -/
def fixedDigits? (count : Nat) (cs : List Char) : Option (Nat × List Char) :=
  let ds := cs.take count
  if ds.length = count && ds.all Char.isDigit then some (digitsToBase 10 ds, cs.drop count) else none

/-- What follows a character that must stand there. -/
def expect? (c : Char) : List Char → Option (List Char)
  | [] => none
  | d :: rest => if d = c then some rest else none

def daysIn (year month : Nat) : Nat :=
  if month = 2 then
    if (year % 4 = 0 ∧ year % 100 ≠ 0) ∨ year % 400 = 0 then 29 else 28
  else if month = 4 ∨ month = 6 ∨ month = 9 ∨ month = 11 then 30
  else 31

/-- What follows a date. -/
def afterDate? (cs : List Char) : Option (List Char) := do
  let (year, cs) ← fixedDigits? 4 cs
  let cs ← expect? '-' cs
  let (month, cs) ← fixedDigits? 2 cs
  let cs ← expect? '-' cs
  let (day, cs) ← fixedDigits? 2 cs
  if 1 ≤ month ∧ month ≤ 12 ∧ 1 ≤ day ∧ day ≤ daysIn year month then some cs else none

/-- What follows a time of day. -/
def afterTime? (cs : List Char) : Option (List Char) := do
  let (hour, cs) ← fixedDigits? 2 cs
  let cs ← expect? ':' cs
  let (minute, cs) ← fixedDigits? 2 cs
  let cs ← expect? ':' cs
  let (second, cs) ← fixedDigits? 2 cs
  if hour ≤ 23 ∧ minute ≤ 59 ∧ second ≤ 60 then
    match cs with
    | '.' :: rest =>
        if (rest.head?.map Char.isDigit).getD false then some (rest.dropWhile Char.isDigit) else none
    | _ => some cs
  else none

/-- What follows the offset of a time, if there is one. -/
def afterOffset? : List Char → Option (List Char)
  | [] => some []
  | sign :: cs =>
      if sign = 'Z' || sign = 'z' then some cs
      else if sign = '+' || sign = '-' then do
        let (hour, cs) ← fixedDigits? 2 cs
        let cs ← expect? ':' cs
        let (minute, cs) ← fixedDigits? 2 cs
        if hour ≤ 23 ∧ minute ≤ 59 then some cs else none
      else some (sign :: cs)

/-- Is the whole text a date, a time, or both? -/
def isDatetime (cs : List Char) : Bool :=
  match afterDate? cs with
  | some [] => true
  | some (mark :: rest) =>
      (mark = 'T' || mark = 't' || mark = ' ') &&
        (afterTime? rest).bind afterOffset? == some []
  | none => afterTime? cs == some []

/-- May the character stand in a scalar that is no string? -/
def isScalarChar (c : Char) : Bool :=
  c.isAlphanum || c = '+' || c = '-' || c = '_' || c = '.' || c = ':'

/-- The text of a scalar that is no string, and what follows. A blank belongs to it between a date and a
time. -/
def scalarText (cs : List Char) : List Char × List Char :=
  let text := cs.takeWhile isScalarChar
  let rest := cs.dropWhile isScalarChar
  match rest with
  | ' ' :: c :: after =>
      if c.isDigit && afterDate? text == some [] then
        (text ++ ' ' :: (c :: after).takeWhile isScalarChar, (c :: after).dropWhile isScalarChar)
      else (text, rest)
  | _ => (text, rest)

/-- A scalar that is no string. -/
def readScalar (text : List Char) : Option Item :=
  if text = "true".toList then some (.boolean true)
  else if text = "false".toList then some (.boolean false)
  else if isDatetime text then some (.datetime (String.ofList text))
  else match readInteger text with
    | some item => some item
    | none => readFloat text

end Pausepoint.Toml
