import Pausepoint.Language.Expr

/-!
# Pausepoint.Proofs.Language.Grammar

Which token lists are expressions, and what they mean.

There are no parentheses, so that not every tree can be written: a product has no sum for an operand, the
operators group to the left, and a negation is of a single operand. `Expr.WellFormed` says this of trees,
without the parser, and `Expr.tokens` writes a tree down. The main result is `parser_accepts_its_grammar`:
reading is the inverse of writing, on the well-formed trees and on the token lists that are accepted.

Proof shape: the six functions of the descent call each other with one unit of work less, so each property
of them is proved at once for a number of units.

* `SoundWithin` — what is taken off a token list is a well-formed tree as it is written;
* `Expr.Reread` — a well-formed tree that is written is read, by induction on its form. A chain of
  operators is read by a loop whose beginning is the tree so far. Therefore reading a term or a sum is
  described as far as the loop that goes on after it, with enough work left for what follows;
* `FinishesWithin` — four units for each token, and a few more, are enough.
-/

namespace Pausepoint

/-- May a value stand in an expression as a constant? -/
def Value.IsConstant : Value → Prop
  | .null | .bool _ | .int _ | .float _ | .string _ => True
  | .char _ | .list _ | .map _ => False

namespace Language

/-! ### The grammar -/

/-- Constants, variables, lists and negations: what binds most tightly. -/
def Expr.IsFactor : Expr → Prop
  | .literal _ | .var _ | .list _ | .neg _ => True
  | .binary .. => False

/-- Factors and products: anything but sums and differences. -/
def Expr.IsTerm : Expr → Prop
  | .literal _ | .var _ | .list _ | .neg _ | .binary .mul .. => True
  | .binary .add .. | .binary .sub .. => False

/-- The names that stand for constants. -/
def constantNames : List String :=
  ["true", "false", "null"]

/-- A tree that can be written without parentheses. -/
inductive Expr.WellFormed : Expr → Prop
  | literal {v : Value} (h : v.IsConstant) : WellFormed (.literal v)
  | var {name : String} (h : name ∉ constantNames) : WellFormed (.var name)
  | list {items : List Expr} (h : ∀ e ∈ items, e.WellFormed) : WellFormed (.list items)
  | neg {operand : Expr} (h : operand.WellFormed) (hfactor : operand.IsFactor) :
      WellFormed (.neg operand)
  | product {lhs rhs : Expr} (hl : lhs.WellFormed) (hr : rhs.WellFormed) (hlhs : lhs.IsTerm)
      (hrhs : rhs.IsFactor) : WellFormed (.binary .mul lhs rhs)
  | sum {op : BinaryOp} {lhs rhs : Expr} (hop : op = .add ∨ op = .sub) (hl : lhs.WellFormed)
      (hr : rhs.WellFormed) (hrhs : rhs.IsTerm) : WellFormed (.binary op lhs rhs)

def constantToken? : Value → Option Token
  | .null => some (.ident "null")
  | .bool true => some (.ident "true")
  | .bool false => some (.ident "false")
  | .int n => some (.int n)
  | .float x => some (.float x)
  | .string s => some (.string s)
  | .char _ | .list _ | .map _ => none

/-- The sign of an operator. -/
def BinaryOp.token : BinaryOp → Token
  | .add => .plus
  | .sub => .minus
  | .mul => .star

mutual

/-- A tree as it is written. -/
def Expr.tokens : Expr → List Token
  | .literal v => (constantToken? v).toList
  | .var name => [.ident name]
  | .list items => .leftBracket :: itemTokens items
  | .neg operand => .minus :: operand.tokens
  | .binary op lhs rhs => lhs.tokens ++ op.token :: rhs.tokens

/-- The items of a list as they are written, with commas between them, and the closing bracket. -/
def itemTokens : List Expr → List Token
  | [] => [.rightBracket]
  | [item] => item.tokens ++ [.rightBracket]
  | item :: next :: rest => item.tokens ++ .comma :: itemTokens (next :: rest)

end

theorem Expr.IsFactor.isTerm {e : Expr} (h : e.IsFactor) : e.IsTerm := by
  cases e with
  | binary op lhs rhs => exact h.elim
  | literal | var | list | neg => trivial

/-- A constant is written as one token, and read back from it. -/
theorem readFactor_constant {v : Value} (h : v.IsConstant) (budget : Nat) (rest : List Token) :
    readFactor (budget + 1) ((Expr.literal v).tokens ++ rest) = .ok (.literal v, rest) := by
  cases v with
  | bool b => cases b <;> rfl
  | null | int | float | string => rfl
  | char | list | map => exact h.elim

/-- A name is a constant or a variable. -/
theorem ofName_cases (name : String) :
    (Expr.ofName name).WellFormed ∧ (Expr.ofName name).IsFactor ∧
      (Expr.ofName name).tokens = [.ident name] := by
  unfold Expr.ofName
  split
  · next h => exact ⟨.literal trivial, trivial, by rw [h]; rfl⟩
  · split
    · next h => exact ⟨.literal trivial, trivial, by rw [h]; rfl⟩
    · split
      · next h => exact ⟨.literal trivial, trivial, by rw [h]; rfl⟩
      · next htrue hfalse hnull =>
          refine ⟨.var ?_, trivial, by simp [Expr.tokens]⟩
          simp [constantNames, htrue, hfalse, hnull]

/-- Any other name stands for itself. -/
theorem ofName_of_not_mem {name : String} (h : name ∉ constantNames) : Expr.ofName name = .var name := by
  simp only [constantNames, List.mem_cons, List.not_mem_nil, or_false, not_or] at h
  simp [Expr.ofName, h]

/-- No tree begins with a closing bracket. -/
theorem Expr.WellFormed.exists_head {e : Expr} (h : e.WellFormed) :
    ∃ token rest, e.tokens = token :: rest ∧ token ≠ .rightBracket := by
  induction h with
  | @literal v h =>
      cases v with
      | null => exact ⟨.ident "null", [], rfl, by simp⟩
      | bool b =>
          cases b with
          | true => exact ⟨.ident "true", [], rfl, by simp⟩
          | false => exact ⟨.ident "false", [], rfl, by simp⟩
      | int n => exact ⟨.int n, [], rfl, by simp⟩
      | float x => exact ⟨.float x, [], rfl, by simp⟩
      | string s => exact ⟨.string s, [], rfl, by simp⟩
      | char | list | map => exact h.elim
  | @var name h => exact ⟨.ident name, [], by rw [tokens], by simp⟩
  | @list items h => exact ⟨.leftBracket, itemTokens items, by rw [tokens], by simp⟩
  | @neg operand h => exact ⟨.minus, operand.tokens, by rw [tokens], by simp⟩
  | product hl hr hlhs hrhs ihl ihr | sum hop hl hr hrhs ihl ihr =>
      obtain ⟨token, rest, htokens, hne⟩ := ihl
      exact ⟨token, _, by rw [tokens, htokens, List.cons_append], hne⟩

/-! ### What is read is well formed -/

/-- A step that succeeds, and what comes after it. -/
theorem exists_of_bind {ε α β : Type} {x : Except ε α} {f : α → Except ε β} {b : β}
    (h : x.bind f = .ok b) : ∃ a, x = .ok a ∧ f a = .ok b := by
  cases x with
  | error fault => cases h
  | ok a => exact ⟨a, rfl, h⟩

/-- A token list begins with a well-formed tree as it is written. -/
structure Expr.Opens (e : Expr) (tokens rest : List Token) : Prop where
  wellFormed : e.WellFormed
  tokens : tokens = e.tokens ++ rest

/-- A token list begins with the items of a list, at least one, and the closing bracket. -/
structure ItemsOpen (items : List Expr) (tokens rest : List Token) : Prop where
  nonempty : items ≠ []
  wellFormed : ∀ e ∈ items, e.WellFormed
  tokens : tokens = itemTokens items ++ rest

/-- What is read with so many units of work is what the tokens begin with. A loop goes on from a tree that
was read before. -/
structure SoundWithin (budget : Nat) : Prop where
  expr {tokens rest : List Token} {e : Expr} (h : readExpr budget tokens = .ok (e, rest)) :
    e.Opens tokens rest
  sums {tokens rest : List Token} {lhs e : Expr} (hlhs : lhs.WellFormed)
    (h : readSums budget lhs tokens = .ok (e, rest)) : e.Opens (lhs.tokens ++ tokens) rest
  term {tokens rest : List Token} {e : Expr} (h : readTerm budget tokens = .ok (e, rest)) :
    e.Opens tokens rest ∧ e.IsTerm
  products {tokens rest : List Token} {lhs e : Expr} (hlhs : lhs.WellFormed) (hterm : lhs.IsTerm)
    (h : readProducts budget lhs tokens = .ok (e, rest)) :
    e.Opens (lhs.tokens ++ tokens) rest ∧ e.IsTerm
  factor {tokens rest : List Token} {e : Expr} (h : readFactor budget tokens = .ok (e, rest)) :
    e.Opens tokens rest ∧ e.IsFactor
  items {tokens rest : List Token} {items : List Expr}
    (h : readItems budget tokens = .ok (items, rest)) : ItemsOpen items tokens rest

namespace SoundWithin

variable {budget : Nat} {tokens rest : List Token} {lhs e : Expr}

theorem succ_expr (hs : SoundWithin budget) (h : readExpr (budget + 1) tokens = .ok (e, rest)) :
    e.Opens tokens rest := by
  obtain ⟨⟨first, after⟩, hfirst, hsums⟩ := exists_of_bind h
  obtain ⟨⟨hwell, rfl⟩, -⟩ := hs.term hfirst
  exact hs.sums hwell hsums

/-- One operator of a sum, and the loop goes on from a longer sum. -/
theorem succ_operation (hs : SoundWithin budget) {op : BinaryOp} (hop : op = .add ∨ op = .sub)
    (hlhs : lhs.WellFormed)
    (h : (readTerm budget tokens).bind (fun (rhs, after) => readSums budget (.binary op lhs rhs) after) =
      .ok (e, rest)) : e.Opens (lhs.tokens ++ op.token :: tokens) rest := by
  obtain ⟨⟨rhs, after⟩, hrhs, hsums⟩ := exists_of_bind h
  obtain ⟨⟨hwell, rfl⟩, hterm⟩ := hs.term hrhs
  have hlonger := hs.sums (.sum hop hlhs hwell hterm) hsums
  rw [Expr.tokens, List.append_assoc, List.cons_append] at hlonger
  exact hlonger

theorem succ_sums (hs : SoundWithin budget) (hlhs : lhs.WellFormed)
    (h : readSums (budget + 1) lhs tokens = .ok (e, rest)) : e.Opens (lhs.tokens ++ tokens) rest := by
  unfold readSums at h
  split at h
  · next heq => cases heq
  · next heq =>
      cases heq
      exact hs.succ_operation (.inl rfl) hlhs h
  · next heq =>
      cases heq
      exact hs.succ_operation (.inr rfl) hlhs h
  · cases h
    exact ⟨hlhs, rfl⟩

theorem succ_term (hs : SoundWithin budget) (h : readTerm (budget + 1) tokens = .ok (e, rest)) :
    e.Opens tokens rest ∧ e.IsTerm := by
  obtain ⟨⟨first, after⟩, hfirst, hproducts⟩ := exists_of_bind h
  obtain ⟨⟨hwell, rfl⟩, hfactor⟩ := hs.factor hfirst
  exact hs.products hwell hfactor.isTerm hproducts

theorem succ_products (hs : SoundWithin budget) (hlhs : lhs.WellFormed) (hterm : lhs.IsTerm)
    (h : readProducts (budget + 1) lhs tokens = .ok (e, rest)) :
    e.Opens (lhs.tokens ++ tokens) rest ∧ e.IsTerm := by
  unfold readProducts at h
  split at h
  · next heq => cases heq
  · next heq =>
      cases heq
      obtain ⟨⟨rhs, after⟩, hrhs, hproducts⟩ := exists_of_bind h
      obtain ⟨⟨hwell, rfl⟩, hfactor⟩ := hs.factor hrhs
      have hlonger := hs.products (.product hlhs hwell hterm hfactor) trivial hproducts
      rw [Expr.tokens, List.append_assoc, List.cons_append] at hlonger
      exact hlonger
  · cases h
    exact ⟨⟨hlhs, rfl⟩, hterm⟩

theorem succ_factor (hs : SoundWithin budget) (h : readFactor (budget + 1) tokens = .ok (e, rest)) :
    e.Opens tokens rest ∧ e.IsFactor := by
  unfold readFactor at h
  split at h
  · next heq => cases heq
  · cases h
  · cases h
    exact ⟨⟨.literal trivial, rfl⟩, trivial⟩
  · cases h
    exact ⟨⟨.literal trivial, rfl⟩, trivial⟩
  · cases h
    exact ⟨⟨.literal trivial, rfl⟩, trivial⟩
  · next name after _ =>
      cases h
      obtain ⟨hwell, hfactor, htokens⟩ := ofName_cases name
      exact ⟨⟨hwell, by rw [htokens]; rfl⟩, hfactor⟩
  · next heq =>
      cases heq
      obtain ⟨⟨operand, after⟩, hoperand, hreturn⟩ := exists_of_bind h
      obtain ⟨⟨hwell, rfl⟩, hfactor⟩ := hs.factor hoperand
      cases hreturn
      exact ⟨⟨.neg hwell hfactor, by rw [Expr.tokens]; rfl⟩, trivial⟩
  · cases h
    exact ⟨⟨.list fun _ hmem => absurd hmem List.not_mem_nil, rfl⟩, trivial⟩
  · next heq =>
      cases heq
      obtain ⟨⟨items, after⟩, hitems, hreturn⟩ := exists_of_bind h
      obtain ⟨-, hwell, rfl⟩ := hs.items hitems
      cases hreturn
      exact ⟨⟨.list hwell, by rw [Expr.tokens]; rfl⟩, trivial⟩
  · cases h

theorem succ_items (hs : SoundWithin budget) {items : List Expr}
    (h : readItems (budget + 1) tokens = .ok (items, rest)) : ItemsOpen items tokens rest := by
  obtain ⟨⟨item, after⟩, hitem, hmore⟩ := exists_of_bind h
  obtain ⟨hwell, rfl⟩ := hs.expr hitem
  dsimp only at hmore
  split at hmore
  · next later =>
      obtain ⟨⟨others, last⟩, hothers, hreturn⟩ := exists_of_bind hmore
      obtain ⟨hnonempty, hall, rfl⟩ := hs.items hothers
      cases hreturn
      refine ⟨List.cons_ne_nil _ _, List.forall_mem_cons.mpr ⟨hwell, hall⟩, ?_⟩
      cases others with
      | nil => exact absurd rfl hnonempty
      | cons next others => rw [itemTokens, List.append_assoc, List.cons_append]
  · cases hmore
    exact ⟨List.cons_ne_nil _ _, List.forall_mem_singleton.mpr hwell,
      by rw [itemTokens, List.append_assoc, List.singleton_append]⟩
  · cases hmore

end SoundWithin

/-- Nothing is read without work. -/
theorem soundWithin_zero : SoundWithin 0 where
  expr h := by cases h
  sums _ h := by cases h
  term h := by cases h
  products _ _ h := by cases h
  factor h := by cases h
  items h := by cases h

/-- **What is read is well formed**, and it is written as the tokens that were taken. -/
theorem soundWithin (budget : Nat) : SoundWithin budget := by
  induction budget with
  | zero => exact soundWithin_zero
  | succ budget ih =>
      exact ⟨ih.succ_expr, ih.succ_sums, ih.succ_term, ih.succ_products, ih.succ_factor, ih.succ_items⟩

/-! ### What is well formed is read -/

/-- A loop over factors is over at anything but their sign. -/
theorem readProducts_of_ne {rest : List Token} (h : rest.head? ≠ some .star) (budget : Nat) (lhs : Expr) :
    readProducts (budget + 1) lhs rest = .ok (lhs, rest) := by
  unfold readProducts
  split
  · next heq => cases heq
  · exact absurd rfl h
  · rfl

/-- A loop over terms is over at anything but one of their signs. -/
theorem readSums_of_ne {rest : List Token} (hplus : rest.head? ≠ some .plus)
    (hminus : rest.head? ≠ some .minus) (budget : Nat) (lhs : Expr) :
    readSums (budget + 1) lhs rest = .ok (lhs, rest) := by
  unfold readSums
  split
  · next heq => cases heq
  · exact absurd rfl hplus
  · exact absurd rfl hminus
  · rfl

/-- A list that is not closed at once has items. -/
theorem readFactor_leftBracket {token : Token} (h : token ≠ .rightBracket) (budget : Nat)
    (rest : List Token) :
    readFactor (budget + 1) (.leftBracket :: token :: rest) =
      (readItems budget (token :: rest)).bind fun (items, rest) => .ok (.list items, rest) := by
  cases token with
  | rightBracket => exact absurd rfl h
  | int | float | string | ident | plus | minus | star | leftBracket | comma => rfl

/-- A tree that is written is read again, whatever stands behind it. A factor is read at once; a term and
a sum are read up to a loop that has the tree so far, and work enough for what stands behind. -/
structure Expr.Reread (e : Expr) : Prop where
  factor (h : e.IsFactor) (rest : List Token) (budget : Nat)
    (hbudget : 4 * (e.tokens ++ rest).length + 1 ≤ budget) :
    readFactor budget (e.tokens ++ rest) = .ok (e, rest)
  term (h : e.IsTerm) (rest : List Token) (budget : Nat)
    (hbudget : 4 * (e.tokens ++ rest).length + 2 ≤ budget) :
    ∃ left, 4 * rest.length + 1 ≤ left ∧ readTerm budget (e.tokens ++ rest) = readProducts left e rest
  sum (rest : List Token) (budget : Nat) (hrest : rest.head? ≠ some .star)
    (hbudget : 4 * (e.tokens ++ rest).length + 3 ≤ budget) :
    ∃ left, 4 * rest.length + 1 ≤ left ∧ readExpr budget (e.tokens ++ rest) = readSums left e rest

namespace Expr

variable {e lhs rhs : Expr}

/-- A term is read to its end if no further factor follows. -/
theorem Reread.whole_term (he : e.Reread) (h : e.IsTerm) (rest : List Token) (budget : Nat)
    (hrest : rest.head? ≠ some .star) (hbudget : 4 * (e.tokens ++ rest).length + 2 ≤ budget) :
    readTerm budget (e.tokens ++ rest) = .ok (e, rest) := by
  obtain ⟨left, hleft, hread⟩ := he.term h rest budget hbudget
  obtain ⟨left, rfl⟩ := Nat.exists_eq_add_one_of_ne_zero (n := left) (by omega)
  rw [hread, readProducts_of_ne hrest]

/-- A term that is read as one is read as a sum of its own. -/
theorem reread_of_term
    (hfactor : e.IsFactor → ∀ rest budget, 4 * (e.tokens ++ rest).length + 1 ≤ budget →
      readFactor budget (e.tokens ++ rest) = .ok (e, rest))
    (hread : ∀ rest budget, 4 * (e.tokens ++ rest).length + 2 ≤ budget →
      ∃ left, 4 * rest.length + 1 ≤ left ∧
        readTerm budget (e.tokens ++ rest) = readProducts left e rest) : e.Reread where
  factor := hfactor
  term _ := hread
  sum rest budget hrest hbudget := by
    obtain ⟨budget, rfl⟩ := Nat.exists_eq_add_one_of_ne_zero (n := budget) (by omega)
    obtain ⟨left, hleft, hterm⟩ := hread rest budget (by omega)
    obtain ⟨left, rfl⟩ := Nat.exists_eq_add_one_of_ne_zero (n := left) (by omega)
    rw [readProducts_of_ne hrest] at hterm
    rw [List.length_append] at hbudget
    refine ⟨budget, by omega, ?_⟩
    unfold readExpr
    rw [hterm]
    rfl

/-- A factor that is read as one is read as a product of its own. -/
theorem reread_of_factor
    (hread : ∀ rest budget, 4 * (e.tokens ++ rest).length + 1 ≤ budget →
      readFactor budget (e.tokens ++ rest) = .ok (e, rest)) : e.Reread := by
  refine reread_of_term (fun _ => hread) fun rest budget hbudget => ?_
  obtain ⟨budget, rfl⟩ := Nat.exists_eq_add_one_of_ne_zero (n := budget) (by omega)
  have hfactor := hread rest budget (by omega)
  rw [List.length_append] at hbudget
  refine ⟨budget, by omega, ?_⟩
  unfold readTerm
  rw [hfactor]
  rfl

theorem reread_neg (h : e.Reread) (hfactor : e.IsFactor) : (neg e).Reread := by
  refine reread_of_factor fun rest budget hbudget => ?_
  rw [tokens, List.cons_append, List.length_cons] at hbudget
  obtain ⟨budget, rfl⟩ := Nat.exists_eq_add_one_of_ne_zero (n := budget) (by omega)
  have hread := h.factor hfactor rest budget (by omega)
  rw [tokens, List.cons_append]
  unfold readFactor
  rw [hread]
  rfl

/-- The items of a list are read one after another: what follows each of them continues no expression. -/
theorem readItems_tokens {items : List Expr} (hitems : ∀ e ∈ items, e.Reread) (hne : items ≠ [])
    (rest : List Token) (budget : Nat) (hbudget : 4 * (itemTokens items ++ rest).length + 4 ≤ budget) :
    readItems budget (itemTokens items ++ rest) = .ok (items, rest) := by
  induction items generalizing budget with
  | nil => exact absurd rfl hne
  | cons item others ih =>
      obtain ⟨hitem, hothers⟩ := List.forall_mem_cons.mp hitems
      obtain ⟨budget, rfl⟩ := Nat.exists_eq_add_one_of_ne_zero (n := budget) (by omega)
      -- An item is read up to a comma or the closing bracket.
      have hread {after : List Token} (hstar : after.head? ≠ some .star)
          (hplus : after.head? ≠ some .plus) (hminus : after.head? ≠ some .minus)
          (hafter : 4 * (item.tokens ++ after).length + 3 ≤ budget) :
          readExpr budget (item.tokens ++ after) = .ok (item, after) := by
        obtain ⟨left, hleft, hexpr⟩ := hitem.sum after budget hstar hafter
        obtain ⟨left, rfl⟩ := Nat.exists_eq_add_one_of_ne_zero (n := left) (by omega)
        rw [hexpr, readSums_of_ne hplus hminus]
      cases others with
      | nil =>
          rw [itemTokens, List.append_assoc, List.singleton_append] at hbudget ⊢
          unfold readItems
          rw [hread (by simp) (by simp) (by simp) (by omega)]
          rfl
      | cons next others =>
          rw [itemTokens, List.append_assoc, List.cons_append] at hbudget ⊢
          have hmore := ih hothers (List.cons_ne_nil _ _) budget
            (by simp only [List.length_append, List.length_cons] at hbudget ⊢; omega)
          unfold readItems
          rw [hread (by simp) (by simp) (by simp) (by omega)]
          show (readItems budget (itemTokens (next :: others) ++ rest)).bind _ = _
          rw [hmore]
          rfl

theorem reread_list {items : List Expr} (hwell : ∀ e ∈ items, e.WellFormed)
    (hitems : ∀ e ∈ items, e.Reread) : (list items).Reread := by
  refine reread_of_factor fun rest budget hbudget => ?_
  rw [tokens, List.cons_append, List.length_cons] at hbudget
  obtain ⟨budget, rfl⟩ := Nat.exists_eq_add_one_of_ne_zero (n := budget) (by omega)
  rw [tokens, List.cons_append]
  cases items with
  | nil => rfl
  | cons item others =>
      have hread := readItems_tokens hitems (List.cons_ne_nil _ _) rest budget (by omega)
      -- The closing bracket of an empty list is not taken for that of this one.
      obtain ⟨token, after, hhead, hne⟩ := (hwell item List.mem_cons_self).exists_head
      have hopen : ∃ after, itemTokens (item :: others) ++ rest = token :: after := by
        cases others with
        | nil => exact ⟨_, by rw [itemTokens, hhead]; rfl⟩
        | cons next others => exact ⟨_, by rw [itemTokens, hhead]; rfl⟩
      obtain ⟨after, hopen⟩ := hopen
      rw [hopen] at hread ⊢
      rw [readFactor_leftBracket hne, hread]
      rfl

theorem reread_product (hl : lhs.Reread) (hr : rhs.Reread) (hlhs : lhs.IsTerm) (hrhs : rhs.IsFactor) :
    (binary .mul lhs rhs).Reread := by
  refine reread_of_term (fun h => h.elim) fun rest budget hbudget => ?_
  rw [tokens, List.append_assoc, List.cons_append] at hbudget ⊢
  obtain ⟨left, hleft, hread⟩ := hl.term hlhs _ budget hbudget
  obtain ⟨left, rfl⟩ := Nat.exists_eq_add_one_of_ne_zero (n := left) (by omega)
  rw [List.length_cons] at hleft
  have hfactor := hr.factor hrhs rest left (by omega)
  rw [List.length_append] at hleft
  refine ⟨left, by omega, ?_⟩
  rw [hread]
  show (readFactor left (rhs.tokens ++ rest)).bind _ = _
  rw [hfactor]
  rfl

theorem reread_sum {op : BinaryOp} (hop : op = .add ∨ op = .sub) (hl : lhs.Reread) (hr : rhs.Reread)
    (hrhs : rhs.IsTerm) : (binary op lhs rhs).Reread := by
  have hnot : ¬(binary op lhs rhs).IsTerm := by
    rcases hop with rfl | rfl
    · exact id
    · exact id
  refine ⟨fun h => absurd h.isTerm hnot, fun h => absurd h hnot, fun rest budget hrest hbudget => ?_⟩
  rw [tokens, List.append_assoc, List.cons_append] at hbudget ⊢
  have hsign : (op.token :: (rhs.tokens ++ rest)).head? ≠ some .star := by
    rcases hop with rfl | rfl <;> simp [BinaryOp.token]
  obtain ⟨left, hleft, hread⟩ := hl.sum _ budget hsign hbudget
  obtain ⟨left, rfl⟩ := Nat.exists_eq_add_one_of_ne_zero (n := left) (by omega)
  rw [List.length_cons] at hleft
  have hterm := hr.whole_term hrhs rest left hrest (by omega)
  rw [List.length_append] at hleft
  refine ⟨left, by omega, ?_⟩
  rw [hread]
  rcases hop with rfl | rfl
  · show (readTerm left (rhs.tokens ++ rest)).bind _ = _
    rw [hterm]
    rfl
  · show (readTerm left (rhs.tokens ++ rest)).bind _ = _
    rw [hterm]
    rfl

/-- **What is well formed is read** from the tokens it is written as. -/
theorem WellFormed.reread (h : e.WellFormed) : e.Reread := by
  induction h with
  | literal h =>
      refine reread_of_factor fun rest budget hbudget => ?_
      obtain ⟨budget, rfl⟩ := Nat.exists_eq_add_one_of_ne_zero (n := budget) (by omega)
      exact readFactor_constant h budget rest
  | @var name h =>
      refine reread_of_factor fun rest budget hbudget => ?_
      obtain ⟨budget, rfl⟩ := Nat.exists_eq_add_one_of_ne_zero (n := budget) (by omega)
      rw [tokens, List.singleton_append]
      unfold readFactor
      rw [ofName_of_not_mem h]
  | list h ih => exact reread_list h ih
  | neg h hfactor ih => exact reread_neg ih hfactor
  | product hl hr hlhs hrhs ihl ihr => exact reread_product ihl ihr hlhs hrhs
  | sum hop hl hr hrhs ihl ihr => exact reread_sum hop ihl ihr hrhs

end Expr

/-! ### There is always an end -/

/-- A step that ends, followed by steps that end. -/
theorem bind_ne_error {ε α β : Type} {x : Except ε α} {f : α → Except ε β} {fault : ε}
    (h : x ≠ .error fault) (hnext : ∀ a, x = .ok a → f a ≠ .error fault) : x.bind f ≠ .error fault := by
  cases x with
  | error other => exact fun he => h (by cases he; rfl)
  | ok a => exact hnext a rfl

/-- With so many units of work and so few tokens, reading comes to an end. -/
structure FinishesWithin (budget : Nat) : Prop where
  expr {tokens : List Token} (h : 4 * tokens.length + 3 ≤ budget) :
    readExpr budget tokens ≠ .error .unfinished
  sums {tokens : List Token} (lhs : Expr) (h : 4 * tokens.length + 1 ≤ budget) :
    readSums budget lhs tokens ≠ .error .unfinished
  term {tokens : List Token} (h : 4 * tokens.length + 2 ≤ budget) :
    readTerm budget tokens ≠ .error .unfinished
  products {tokens : List Token} (lhs : Expr) (h : 4 * tokens.length + 1 ≤ budget) :
    readProducts budget lhs tokens ≠ .error .unfinished
  factor {tokens : List Token} (h : 4 * tokens.length + 1 ≤ budget) :
    readFactor budget tokens ≠ .error .unfinished
  items {tokens : List Token} (h : 4 * tokens.length + 4 ≤ budget) :
    readItems budget tokens ≠ .error .unfinished

/-- What is left is no longer than what there was. -/
theorem Expr.Opens.length_le {e : Expr} {tokens rest : List Token} (h : e.Opens tokens rest) :
    rest.length ≤ tokens.length := by
  rw [h.tokens, List.length_append]
  omega

namespace FinishesWithin

variable {budget : Nat} {tokens : List Token}

theorem succ_expr (hf : FinishesWithin budget) (h : 4 * tokens.length + 3 ≤ budget + 1) :
    readExpr (budget + 1) tokens ≠ .error .unfinished := by
  refine bind_ne_error (hf.term (by omega)) fun (first, rest) hfirst => ?_
  have hle := ((soundWithin budget).term hfirst).1.length_le
  exact hf.sums first (by omega)

/-- One operator of a sum. -/
theorem succ_operation (hf : FinishesWithin budget) (op : BinaryOp) (lhs : Expr)
    (h : 4 * tokens.length + 4 ≤ budget) :
    (readTerm budget tokens).bind (fun (rhs, after) => readSums budget (.binary op lhs rhs) after) ≠
      .error .unfinished := by
  refine bind_ne_error (hf.term (by omega)) fun (rhs, rest) hrhs => ?_
  have hle := ((soundWithin budget).term hrhs).1.length_le
  exact hf.sums _ (by omega)

theorem succ_sums (hf : FinishesWithin budget) (lhs : Expr) (h : 4 * tokens.length + 1 ≤ budget + 1) :
    readSums (budget + 1) lhs tokens ≠ .error .unfinished := by
  unfold readSums
  split
  · next heq => cases heq
  · next heq =>
      cases heq
      rw [List.length_cons] at h
      exact hf.succ_operation .add _ (by omega)
  · next heq =>
      cases heq
      rw [List.length_cons] at h
      exact hf.succ_operation .sub _ (by omega)
  · simp

theorem succ_term (hf : FinishesWithin budget) (h : 4 * tokens.length + 2 ≤ budget + 1) :
    readTerm (budget + 1) tokens ≠ .error .unfinished := by
  refine bind_ne_error (hf.factor (by omega)) fun (first, rest) hfirst => ?_
  have hle := ((soundWithin budget).factor hfirst).1.length_le
  exact hf.products first (by omega)

theorem succ_products (hf : FinishesWithin budget) (lhs : Expr)
    (h : 4 * tokens.length + 1 ≤ budget + 1) :
    readProducts (budget + 1) lhs tokens ≠ .error .unfinished := by
  unfold readProducts
  split
  · next heq => cases heq
  · next after heq =>
      cases heq
      rw [List.length_cons] at h
      refine bind_ne_error (hf.factor (by omega)) fun (rhs, rest) hrhs => ?_
      have hle := ((soundWithin budget).factor hrhs).1.length_le
      exact hf.products _ (by omega)
  · simp

theorem succ_factor (hf : FinishesWithin budget) (h : 4 * tokens.length + 1 ≤ budget + 1) :
    readFactor (budget + 1) tokens ≠ .error .unfinished := by
  unfold readFactor
  split
  · next heq => cases heq
  · simp
  · simp
  · simp
  · simp
  · simp
  · next after heq =>
      cases heq
      rw [List.length_cons] at h
      exact bind_ne_error (hf.factor (by omega)) fun _ _ => by simp [pure, Except.pure]
  · simp
  · next after _ heq =>
      cases heq
      rw [List.length_cons] at h
      exact bind_ne_error (hf.items (by omega)) fun _ _ => by simp [pure, Except.pure]
  · simp

theorem succ_items (hf : FinishesWithin budget) (h : 4 * tokens.length + 4 ≤ budget + 1) :
    readItems (budget + 1) tokens ≠ .error .unfinished := by
  refine bind_ne_error (hf.expr (by omega)) fun (item, rest) hitem => ?_
  have hle := ((soundWithin budget).expr hitem).length_le
  dsimp only
  split
  · next after =>
      rw [List.length_cons] at hle
      exact bind_ne_error (hf.items (by omega)) fun _ _ => by simp [pure, Except.pure]
  · simp [pure, Except.pure]
  · simp

end FinishesWithin

/-- No token list is so short that nothing need be done. -/
theorem finishesWithin_zero : FinishesWithin 0 where
  expr h := by omega
  sums _ h := by omega
  term h := by omega
  products _ h := by omega
  factor h := by omega
  items h := by omega

/-- **Reading comes to an end** before the work is used up. -/
theorem finishesWithin (budget : Nat) : FinishesWithin budget := by
  induction budget with
  | zero => exact finishesWithin_zero
  | succ budget ih =>
      exact ⟨ih.succ_expr, ih.succ_sums, ih.succ_term, ih.succ_products, ih.succ_factor, ih.succ_items⟩

/-! ### Whole token lists -/

/-- A well-formed tree is read from what it is written as, to the end. -/
theorem parseTokens_tokens {e : Expr} (h : e.WellFormed) : parseTokens e.tokens = .ok (e, []) := by
  obtain ⟨left, hleft, hread⟩ := h.reread.sum [] (budget e.tokens) (by simp)
    (by rw [List.append_nil, budget]; omega)
  obtain ⟨left, rfl⟩ := Nat.exists_eq_add_one_of_ne_zero (n := left) (by omega)
  rw [List.append_nil, readSums_of_ne (by simp) (by simp)] at hread
  exact hread

/-- What is read to the end is well formed, and written as just these tokens. -/
theorem opens_of_parseTokens {tokens rest : List Token} {e : Expr}
    (h : parseTokens tokens = .ok (e, rest)) : e.Opens tokens rest :=
  (soundWithin _).expr h

/-- Trees that are written alike are alike. -/
theorem Expr.WellFormed.eq_of_tokens {e other : Expr} (h : e.WellFormed) (hother : other.WellFormed)
    (htokens : other.tokens = e.tokens) : other = e := by
  have hread := parseTokens_tokens hother
  rw [htokens, parseTokens_tokens h] at hread
  cases hread
  rfl

/-- A token list is read to its end as a tree exactly if the tree is well formed and written as that list. -/
theorem parseTokens_eq_ok_iff {tokens : List Token} {e : Expr} :
    parseTokens tokens = .ok (e, []) ↔ e.WellFormed ∧ e.tokens = tokens := by
  constructor
  · intro h
    obtain ⟨hwell, htokens⟩ := opens_of_parseTokens h
    exact ⟨hwell, by rw [htokens, List.append_nil]⟩
  · rintro ⟨hwell, rfl⟩
    exact parseTokens_tokens hwell

/-- **The parser accepts exactly its grammar, with the right tree.** A token list is read to its end as a
tree if and only if the tree is well formed and written as that list, and it is then the only such tree.
Any other token list is an error: it has a fault, which is never a lack of work, or something is left over
behind a tree. -/
theorem parser_accepts_its_grammar (tokens : List Token) :
    (∀ e : Expr, parseTokens tokens = .ok (e, []) ↔
      e.WellFormed ∧ e.tokens = tokens ∧
        ∀ other : Expr, other.WellFormed → other.tokens = tokens → other = e) ∧
    ((∃ e : Expr, e.WellFormed ∧ e.tokens = tokens) ∨
      (∃ fault, fault ≠ .unfinished ∧ parseTokens tokens = .error fault) ∨
      ∃ e token rest, parseTokens tokens = .ok (e, token :: rest) ∧ e.Opens tokens (token :: rest)) := by
  refine ⟨fun e => ?_, ?_⟩
  · rw [parseTokens_eq_ok_iff]
    constructor
    · rintro ⟨hwell, rfl⟩
      exact ⟨hwell, rfl, fun other hother htokens => hwell.eq_of_tokens hother htokens⟩
    · exact fun ⟨hwell, htokens, _⟩ => ⟨hwell, htokens⟩
  · cases hread : parseTokens tokens with
    | error fault =>
        refine .inr (.inl ⟨fault, ?_, rfl⟩)
        rintro rfl
        exact (finishesWithin _).expr (by rw [budget]; omega) hread
    | ok result =>
        obtain ⟨e, rest⟩ := result
        cases rest with
        | nil => exact .inl ⟨e, parseTokens_eq_ok_iff.mp hread⟩
        | cons token rest => exact .inr (.inr ⟨e, token, rest, rfl, opens_of_parseTokens hread⟩)

/-- **A text is an expression** if its tokens are those of a well-formed tree. -/
theorem parseExpr_eq_ok_iff {text : List Char} {e : Expr} :
    parseExpr text = .ok e ↔ e.WellFormed ∧ tokenize (Text.trim text) = .ok e.tokens := by
  unfold parseExpr
  dsimp only
  cases tokenize (Text.trim text) with
  | error fault => simp
  | ok tokens =>
      dsimp only
      rw [Except.ok.injEq, eq_comm (a := tokens), ← parseTokens_eq_ok_iff]
      split
      · next hread => simp [hread]
      · next hread => simp [hread]
      · next hread => simp [hread]

/-- A sum of a product and a negation in a list, and what it is written as. -/
example : parseTokens [.leftBracket, .int 1, .star, .ident "a", .minus, .minus, .ident "null",
    .rightBracket] =
    .ok (.list [.binary .sub (.binary .mul (.literal (.int 1)) (.var "a")) (.neg (.literal .null))], []) :=
  rfl

end Language

end Pausepoint
