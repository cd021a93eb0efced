import Mathlib.Data.List.Chain
import Pausepoint.Language.Token

/-!
# Pausepoint.Proofs.Language.Spelling

Tokens as they are written, and what becomes of them.

A list of tokens is written by writing each of them in a way of its own, with any blanks between them. Only
words need one, that is numbers and names: what stands at the end of one word and at the beginning of the
next would be read as a single one. Strings are written with escapes, so that they hold any text, also one
that looks like a closing quote or like further tokens.

* `Token.spelling`, `escape` — how a token is written;
* `Lexeme` — a token in a text, with the zeros that lead it and the blanks behind it;
* `numberToken_numeral`, `readString_content` — numbers and strings are read back;
* `tokenize_spelling` — so is every token, whatever stands behind it, as long as a word does not run on;
* `tokenize_written` — so is a whole text.

Proof shape: induction on the lexemes. `EndsWord` is what a word asks of the text behind it; a blank grants it
(`endsWord_blank`), and so does every token that is no word (`endsWord_spelling`). Since the tokenizer tells
tokens by their first character, `toNat_of_word` says once where the characters of words are.
-/

namespace Pausepoint.Language

open Pausepoint.Text

/-! ### How tokens are written -/

/-- A character of a string as it is written between quotes. -/
def escape (c : Char) : List Char :=
  if c = '\n' then ['\\', 'n'] else if c = '"' ∨ c = '\\' then ['\\', c] else [c]

/-- A number as it is written, behind so many zeros. -/
def numeral (zeros n : Nat) : List Char :=
  List.replicate zeros '0' ++ digits n

/-- A token as it is written; zeros lead it if it is a number. -/
def Token.spelling (zeros : Nat) : Token → List Char
  | .int n => numeral zeros n.toInt.toNat
  | .float _ => []
  | .string s => '"' :: (s.toList.flatMap escape ++ ['"'])
  | .ident name => name.toList
  | .plus => ['+']
  | .minus => ['-']
  | .star => ['*']
  | .leftBracket => ['[']
  | .rightBracket => [']']
  | .comma => [',']

/-- A token that is written in this way: no float, no number below zero, and no name that is none. -/
def Token.IsPlain : Token → Prop
  | .int n => 0 ≤ n.toInt
  | .float _ => False
  | .ident name => isName name.toList = true
  | _ => True

instance (token : Token) : Decidable token.IsPlain :=
  match token with
  | .int n => inferInstanceAs (Decidable (0 ≤ n.toInt))
  | .float _ => inferInstanceAs (Decidable False)
  | .ident name => inferInstanceAs (Decidable (isName name.toList = true))
  | .string _ | .plus | .minus | .star | .leftBracket | .rightBracket | .comma =>
      inferInstanceAs (Decidable True)

/-- A token that runs on as long as letters, digits or points follow. -/
def Token.IsWord : Token → Prop
  | .int _ | .float _ | .ident _ => True
  | _ => False

/-- A token as it stands in a text, with the blanks behind it. -/
structure Lexeme where
  token : Token
  /-- How many zeros lead it, if it is a number. -/
  zeros : Nat := 0
  /-- The blanks behind it. -/
  blanks : List Char := []
  /-- It can be written. -/
  isPlain : token.IsPlain := by decide
  /-- Nothing but blanks is behind it. -/
  isBlank : blanks.all isBlank = true := by decide

/-- What stands in the text. -/
def Lexeme.text (l : Lexeme) : List Char :=
  l.token.spelling l.zeros ++ l.blanks

/-- Two tokens that would run together have a blank between them. -/
def Lexeme.Apart (l next : Lexeme) : Prop :=
  l.token.IsWord → next.token.IsWord → l.blanks ≠ []

/-! ### Characters -/

variable {c : Char} {cs rest : List Char} {token : Token}

/-- No visible character of ASCII is a blank. -/
theorem isBlank_of_visible (h : 0x20 < c.toNat) (h' : c.toNat < 0x7F) : isBlank c = false := by
  simp only [isBlank, inRanges, blankRanges, List.any_cons, List.any_nil, Bool.or_false,
    Bool.or_eq_false_iff, Bool.and_eq_false_iff, decide_eq_false_iff_not]
  omega

/-- The code points of letters. -/
theorem isAlpha_iff_toNat :
    c.isAlpha = true ↔ 65 ≤ c.toNat ∧ c.toNat ≤ 90 ∨ 97 ≤ c.toNat ∧ c.toNat ≤ 122 := by
  have hupper : c.isUpper = decide ('A'.val ≤ c.val ∧ c.val ≤ 'Z'.val) := rfl
  have hlower : c.isLower = (decide ('a'.val ≤ c.val) && decide (c.val ≤ 'z'.val)) := rfl
  rw [show c.isAlpha = (c.isUpper || c.isLower) from rfl, hupper, hlower]
  simp only [Bool.or_eq_true, Bool.and_eq_true, decide_eq_true_eq, UInt32.le_iff_toNat_le]
  rfl

/-- The code points of the characters of names and numbers. -/
theorem toNat_of_word (h : isNameChar c = true ∨ isNumberChar c = true) :
    c.toNat = 46 ∨ 48 ≤ c.toNat ∧ c.toNat ≤ 57 ∨ 65 ≤ c.toNat ∧ c.toNat ≤ 90 ∨ c.toNat = 95 ∨
      97 ≤ c.toNat ∧ c.toNat ≤ 122 := by
  simp only [isNameChar, isNumberChar, Char.isAlphanum, Bool.or_eq_true, beq_iff_eq, isAlpha_iff_toNat,
    Char.isDigit_iff_toNat] at h
  rcases h with (((h | h) | h) | rfl) | (h | rfl)
  · exact .inr (.inr (.inl h))
  · exact .inr (.inr (.inr (.inr h)))
  · exact .inr (.inl h)
  · decide
  · exact .inr (.inl h)
  · decide

/-- Such a character is no blank. -/
theorem isBlank_of_word (h : isNameChar c = true ∨ isNumberChar c = true) : isBlank c = false := by
  have := toNat_of_word h
  exact isBlank_of_visible (by omega) (by omega)

/-- Nor is it a token by itself. -/
theorem symbol?_of_word (h : isNameChar c = true ∨ isNumberChar c = true) : symbol? c = none := by
  unfold symbol?
  split
  case h_7 => rfl
  all_goals exact absurd h (by decide)

/-- A text does not go on with a character of a name or a number. -/
def EndsWord (rest : List Char) : Prop :=
  ∀ c ∈ rest.head?, isNameChar c = false ∧ isNumberChar c = false

theorem endsWord_cons : EndsWord (c :: rest) ↔ isNameChar c = false ∧ isNumberChar c = false := by
  simp [EndsWord]

theorem endsWord_blank (h : isBlank c = true) : EndsWord (c :: rest) := by
  rw [endsWord_cons, ← Bool.not_eq_true, ← Bool.not_eq_true, ← not_or]
  intro hword
  rw [isBlank_of_word hword] at h
  cases h

/-- A run goes as far as its characters do. -/
theorem takeWhile_run {p : Char → Bool} (hcs : ∀ c ∈ cs, p c = true)
    (hrest : ∀ c ∈ rest.head?, p c = false) :
    (cs ++ rest).takeWhile p = cs ∧ (cs ++ rest).dropWhile p = rest := by
  rw [List.takeWhile_append_of_pos hcs, List.dropWhile_append_of_pos hcs]
  cases rest with
  | nil => simp
  | cons c rest => simp [hrest c rfl]

/-! ### Lexemes -/

/-- Blanks are skipped. -/
theorem tokenize_blanks (h : cs.all isBlank = true) : tokenize (cs ++ rest) = tokenize rest := by
  induction cs with
  | nil => rfl
  | cons c cs ih =>
      rw [List.all_cons, Bool.and_eq_true] at h
      rw [List.cons_append, tokenize, if_pos h.1, ih h.2]

/-- A character that is a token by itself. -/
theorem tokenize_symbol (hblank : isBlank c = false) (h : symbol? c = some token) :
    tokenize (c :: rest) = (tokenize rest).map (token :: ·) := by
  rw [tokenize, hblank]
  simp only [Bool.false_eq_true, if_false, h]

/-- A string, from its opening quote. -/
theorem tokenize_string {content after : List Char} (h : readString rest = some (content, after)) :
    tokenize ('"' :: rest) = (tokenize after).map (.string (String.ofList content) :: ·) := by
  rw [tokenize, isBlank_of_visible (by decide) (by decide)]
  simp only [Bool.false_eq_true, if_false, show symbol? '"' = none from rfl, if_true]
  split
  · next hnone => rw [h] at hnone; cases hnone
  · next content' after' hsome =>
      rw [h] at hsome
      cases hsome
      rfl

/-- A number, up to where it ends. -/
theorem tokenize_number (hc : c.isDigit = true) (hcs : ∀ d ∈ cs, isNumberChar d = true)
    (hends : EndsWord rest) (h : numberToken (c :: cs) = .ok token) :
    tokenize (c :: (cs ++ rest)) = (tokenize rest).map (token :: ·) := by
  have hword : isNameChar c = true ∨ isNumberChar c = true := .inr (by simp [isNumberChar, hc])
  have hquote : c ≠ '"' := by
    rintro rfl
    cases hc
  obtain ⟨htake, hdrop⟩ := takeWhile_run hcs fun d hd => (hends d hd).2
  rw [tokenize, isBlank_of_word hword]
  simp only [Bool.false_eq_true, if_false, symbol?_of_word hword, hquote, hc, if_true, htake, hdrop, h]

/-- A name, up to where it ends. -/
theorem tokenize_name (hc : isNameStart c = true) (hcs : ∀ d ∈ cs, isNameChar d = true)
    (hends : EndsWord rest) :
    tokenize (c :: (cs ++ rest)) = (tokenize rest).map (.ident (String.ofList (c :: cs)) :: ·) := by
  have hname : isNameChar c = true := by
    simp only [isNameStart, isNameChar, Char.isAlphanum, Bool.or_eq_true] at hc ⊢
    exact hc.imp_left .inl
  have hquote : c ≠ '"' := by
    rintro rfl
    cases hc
  have hdigit : c.isDigit = false := by
    rw [← Bool.not_eq_true, Char.isDigit_iff_toNat]
    simp only [isNameStart, Bool.or_eq_true, beq_iff_eq, isAlpha_iff_toNat] at hc
    rintro ⟨-, hle : c.toNat ≤ 57⟩
    rcases hc with (hc | hc) | rfl
    · omega
    · omega
    · exact absurd hle (by decide)
  obtain ⟨htake, hdrop⟩ := takeWhile_run hcs fun d hd => (hends d hd).1
  rw [tokenize, isBlank_of_word (.inl hname)]
  simp only [Bool.false_eq_true, if_false, symbol?_of_word (.inl hname), hquote, hdigit, hc, if_true,
    htake, hdrop]

/-! ### Numbers -/

/-- Digits make a number larger. -/
theorem le_ofDigitChars (cs : List Char) (acc : Nat) : acc ≤ Nat.ofDigitChars 10 cs acc := by
  induction cs generalizing acc with
  | nil => simp
  | cons c cs ih =>
      rw [Nat.ofDigitChars_cons]
      exact Nat.le_trans (by omega) (ih _)

/-- Digits are read as the number they stand for, if it is in bounds. -/
theorem digitsFrom_of_digits {max acc : Nat} (hcs : ∀ c ∈ cs, c.isDigit = true)
    (h : Nat.ofDigitChars 10 cs acc ≤ max) : digitsFrom max acc cs = .ok (Nat.ofDigitChars 10 cs acc) := by
  induction cs generalizing acc with
  | nil => simp [digitsFrom]
  | cons c cs ih =>
      rw [Nat.ofDigitChars_cons] at h ⊢
      -- The bound is checked digit by digit; the digits that follow only add to what was read.
      have hbound : 10 * acc + (c.toNat - '0'.toNat) ≤ max := Nat.le_trans (le_ofDigitChars cs _) h
      rw [digitsFrom, digitValue?, if_pos (hcs c (by simp))]
      dsimp only
      rw [if_pos hbound, ih (fun d hd => hcs d (by simp [hd])) h]

/-- Zeros in front of a number make no difference. -/
theorem ofDigitChars_numeral (zeros n : Nat) : Nat.ofDigitChars 10 (numeral zeros n) 0 = n := by
  rw [numeral, Nat.ofDigitChars_append, Nat.ofDigitChars_replicate_zero, Nat.mul_zero]
  exact Nat.ofDigitChars_ten_toDigits

theorem isDigit_of_mem_numeral {zeros n : Nat} (h : c ∈ numeral zeros n) : c.isDigit = true := by
  rcases List.mem_append.mp h with h | h
  · rw [(List.mem_replicate.mp h).2]
    rfl
  · exact Nat.isDigit_of_mem_toDigits (by decide) (by decide) h

theorem exists_numeral_eq_cons (zeros n : Nat) : ∃ c cs, numeral zeros n = c :: cs := by
  refine List.exists_cons_of_ne_nil fun hnil => ?_
  exact absurd (List.append_eq_nil_iff.mp hnil).2 Nat.toDigits_ne_nil

/-- **A number that is written is read back**, whatever zeros lead it. -/
theorem numberToken_numeral {n : Int64} (h : 0 ≤ n.toInt) (zeros : Nat) :
    numberToken (numeral zeros n.toInt.toNat) = .ok (.int n) := by
  have hdigits : ∀ c ∈ numeral zeros n.toInt.toNat, c.isDigit = true :=
    fun c hc => isDigit_of_mem_numeral hc
  have hpoint : (numeral zeros n.toInt.toNat).contains '.' = false := by
    rw [← Bool.not_eq_true, List.contains_iff_mem]
    intro hmem
    exact absurd (hdigits _ hmem) (by decide)
  have hvalue : digitsValue maxInt (numeral zeros n.toInt.toNat) = .ok n.toInt.toNat := by
    have hbound : Nat.ofDigitChars 10 (numeral zeros n.toInt.toNat) 0 ≤ maxInt := by
      have := n.toInt_lt
      rw [ofDigitChars_numeral]
      unfold maxInt
      omega
    have hread := digitsFrom_of_digits hdigits hbound
    rw [ofDigitChars_numeral] at hread
    obtain ⟨c, cs, hcons⟩ := exists_numeral_eq_cons zeros n.toInt.toNat
    rw [hcons] at hread ⊢
    exact hread
  rw [numberToken, hpoint, hvalue]
  simp only [Bool.false_eq_true, if_false]
  rw [← Int64.ofInt_eq_ofNat, Int.toNat_of_nonneg h, Int64.ofInt_toInt]

/-! ### Strings -/

/-- A character that is written is read back. -/
theorem readString_escape (c : Char) (rest : List Char) :
    readString (escape c ++ rest) =
      (readString rest).map fun (content, after) => (c :: content, after) := by
  unfold escape
  split
  · next h => simp [readString, h]
  · next hfeed =>
      split
      · next h =>
          -- Behind a backslash only `n` stands for something else.
          have hn : c ≠ 'n' := by
            rintro rfl
            simp at h
          simp [readString, hn]
      · next h =>
          obtain ⟨hquote, hslash⟩ := not_or.mp h
          simp [readString, hquote, hslash]

/-- **A string that is written is read back**, up to its own closing quote. -/
theorem readString_content (content rest : List Char) :
    readString (content.flatMap escape ++ '"' :: rest) = some (content, rest) := by
  induction content with
  | nil => simp [readString]
  | cons c content ih =>
      rw [List.flatMap_cons, List.append_assoc, readString_escape, ih]
      rfl

/-! ### Texts -/

/-- What is written as a single character or between quotes does not go on with a word. -/
theorem endsWord_spelling (hword : ¬ token.IsWord) (zeros : Nat) :
    EndsWord (token.spelling zeros ++ rest) := by
  cases token with
  | int | float | ident => exact absurd trivial hword
  | string s | plus | minus | star | leftBracket | rightBracket | comma => exact endsWord_cons.mpr (by decide)

/-- **A token that is written is read back**, if a word does not run on. -/
theorem tokenize_spelling (hplain : token.IsPlain) (zeros : Nat) (hends : token.IsWord → EndsWord rest) :
    tokenize (token.spelling zeros ++ rest) = (tokenize rest).map (token :: ·) := by
  cases token with
  | int n =>
      obtain ⟨c, cs, hcons⟩ := exists_numeral_eq_cons zeros n.toInt.toNat
      -- The first digit tells that it is a number, the others make its run.
      have hdigits : ∀ d ∈ c :: cs, d.isDigit = true := fun d hd => isDigit_of_mem_numeral (hcons ▸ hd)
      have htoken := numberToken_numeral hplain zeros
      rw [hcons] at htoken
      rw [Token.spelling, hcons]
      refine tokenize_number (hdigits c (by simp)) (fun d hd => ?_) (hends trivial) htoken
      rw [isNumberChar, hdigits d (by simp [hd]), Bool.true_or]
  | float x => exact hplain.elim
  | string s =>
      have hread := readString_content s.toList rest
      rw [Token.spelling, List.cons_append, List.append_assoc, List.singleton_append,
        tokenize_string hread, String.ofList_toList]
  | ident name =>
      have hname : isName name.toList = true := hplain
      cases hcs : name.toList with
      | nil => rw [hcs] at hname; cases hname
      | cons c cs =>
          rw [hcs, isName, Bool.and_eq_true, List.all_eq_true] at hname
          rw [Token.spelling, hcs, List.cons_append, tokenize_name hname.1 hname.2 (hends trivial), ← hcs,
            String.ofList_toList]
  | plus | minus | star | leftBracket | rightBracket | comma =>
      exact tokenize_symbol (isBlank_of_visible (by decide) (by decide)) rfl

/-- Behind a word stands no other one, unless a blank is between them. -/
theorem endsWord_lexemes {l : Lexeme} {lexemes : List Lexeme} (hapart : ∀ next ∈ lexemes.head?, l.Apart next)
    (hword : l.token.IsWord) : EndsWord (l.blanks ++ lexemes.flatMap Lexeme.text) := by
  cases hblanks : l.blanks with
  | cons c cs => exact endsWord_blank (List.all_eq_true.mp l.isBlank c (by simp [hblanks]))
  | nil =>
      -- Without a blank the next token, if there is one, is no word.
      cases lexemes with
      | nil => simp [EndsWord]
      | cons next later =>
          have hnext : ¬ next.token.IsWord := fun h => hapart next rfl hword h hblanks
          rw [List.nil_append, List.flatMap_cons, Lexeme.text, List.append_assoc]
          exact endsWord_spelling hnext next.zeros

/-- **Reading tokens is the inverse of writing them**: any tokens but floats, with any zeros before their
numbers and any blanks before, between and behind them that keep words apart. -/
theorem tokenize_written (before : List Char) (hbefore : before.all isBlank = true)
    (lexemes : List Lexeme) (hapart : lexemes.IsChain Lexeme.Apart) :
    tokenize (before ++ lexemes.flatMap Lexeme.text) = .ok (lexemes.map Lexeme.token) := by
  rw [tokenize_blanks hbefore]
  -- Each lexeme is read by itself, then its blanks are skipped.
  induction lexemes with
  | nil => rw [List.flatMap_nil, List.map_nil, tokenize]
  | cons l later ih =>
      obtain ⟨hhead, hlater⟩ := List.isChain_cons.mp hapart
      rw [List.flatMap_cons, Lexeme.text, List.append_assoc,
        tokenize_spelling l.isPlain l.zeros (endsWord_lexemes hhead), tokenize_blanks l.isBlank, ih hlater]
      rfl

/-- Only where two words meet there is a blank, and the string holds what looks like its own end. -/
theorem tokenize_written_crowded :
    let lexemes : List Lexeme :=
      [{ token := .int 7, zeros := 2, blanks := ['\u3000'] },
        { token := .ident "x_1" },
        { token := .minus },
        { token := .string "é\\\"-\n1" },
        { token := .int 9223372036854775807, blanks := [' '] }]
    ['\t'].all isBlank = true ∧ lexemes.IsChain Lexeme.Apart ∧
      ['\t'] ++ lexemes.flatMap Lexeme.text =
        "\t007\u3000x_1-\"é\\\\\\\"-\\n1\"9223372036854775807 ".toList ∧
      tokenize "\t007\u3000x_1-\"é\\\\\\\"-\\n1\"9223372036854775807 ".toList =
        .ok [.int 7, .ident "x_1", .minus, .string "é\\\"-\n1", .int 9223372036854775807] := by
  intro lexemes
  have hbefore : ['\t'].all isBlank = true := by decide
  have hapart : lexemes.IsChain Lexeme.Apart := by
    simp [lexemes, Lexeme.Apart, Token.IsWord]
  have htext : ['\t'] ++ lexemes.flatMap Lexeme.text =
      "\t007\u3000x_1-\"é\\\\\\\"-\\n1\"9223372036854775807 ".toList := by decide +kernel
  exact ⟨hbefore, hapart, htext, htext ▸ tokenize_written ['\t'] hbefore lexemes hapart⟩

end Pausepoint.Language
