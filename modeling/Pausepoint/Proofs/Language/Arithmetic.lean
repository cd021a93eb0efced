import Pausepoint.Language.Interpreter

/-!
# Pausepoint.Proofs.Language.Arithmetic

Arithmetic on whole numbers is exact, or it fails.

Addition joins texts and lists too, and takes a whole number beside a float for a float. An expression that is
made of whole numbers only must take none of these ways: each of its operations is carried out on numbers
without a bound, and the result is kept if it has 64 bits.

* `Expr.Denotes` — the value that an expression of whole numbers has without a bound;
* `Expr.Fits` — this value has room, and so have the values of all parts;
* `combine_ints`, `int64?_eq` — one operation, and the check of its result;
* `Expr.Denotes.evaluatesTo` — the value of an expression that fits, and the fault of one that does not;
* `arithmetic_is_exact` — the same of statements, which fail at their line.

Proof shape: induction on the way in which an expression has its value. That an expression fits is said of all
its parts at once; `Expr.fits_neg` and `Expr.fits_binary` take it apart along the induction, and the first
operand that does not fit is the one that ends the evaluation.

Negation is not checked: the least number has no negation with room. Where it is negated nothing is said.
-/

namespace Pausepoint.Language

/-! ### Values without a bound -/

/-- An expression is one part of another: the whole of it, or a part of an operand or of an item. -/
inductive Expr.IsPartOf (part : Expr) : Expr → Prop
  | whole : IsPartOf part part
  | item {item : Expr} {items : List Expr} (hmem : item ∈ items) (h : IsPartOf part item) :
      IsPartOf part (.list items)
  | operand {e : Expr} (h : IsPartOf part e) : IsPartOf part (.neg e)
  | left {op : BinaryOp} {lhs rhs : Expr} (h : IsPartOf part lhs) : IsPartOf part (.binary op lhs rhs)
  | right {op : BinaryOp} {lhs rhs : Expr} (h : IsPartOf part rhs) : IsPartOf part (.binary op lhs rhs)

/-- An expression is made of whole numbers, and it has this value if numbers have no bound. -/
inductive Expr.Denotes (lookup : String → Option Value) : Expr → Int → Prop
  | literal (n : Int64) : Denotes lookup (.literal (.int n)) n.toInt
  | var {name : String} {n : Int64} (h : lookup name = some (.int n)) : Denotes lookup (.var name) n.toInt
  | neg {e : Expr} {x : Int} (h : Denotes lookup e x) : Denotes lookup (.neg e) (-x)
  | sum {lhs rhs : Expr} {x y : Int} (hl : Denotes lookup lhs x) (hr : Denotes lookup rhs y) :
      Denotes lookup (.binary .add lhs rhs) (x + y)
  | difference {lhs rhs : Expr} {x y : Int} (hl : Denotes lookup lhs x) (hr : Denotes lookup rhs y) :
      Denotes lookup (.binary .sub lhs rhs) (x - y)
  | product {lhs rhs : Expr} {x y : Int} (hl : Denotes lookup lhs x) (hr : Denotes lookup rhs y) :
      Denotes lookup (.binary .mul lhs rhs) (x * y)

/-- A whole number has 64 bits. -/
def HasRoom (n : Int) : Prop :=
  Int64.minValue.toInt ≤ n ∧ n ≤ Int64.maxValue.toInt

/-- Every part of an expression has a value of 64 bits. -/
def Expr.Fits (lookup : String → Option Value) (e : Expr) : Prop :=
  ∀ (part : Expr) (x : Int), part.IsPartOf e → part.Denotes lookup x → HasRoom x

/-- No part of an expression negates the least number, whose negation has no room. -/
def Expr.SparesLeast (lookup : String → Option Value) (e : Expr) : Prop :=
  ∀ operand : Expr, (Expr.neg operand).IsPartOf e → ¬ operand.Denotes lookup Int64.minValue.toInt

variable {lookup : String → Option Value} {e lhs rhs : Expr} {op : BinaryOp} {x y : Int}

/-! ### One operation -/

/-- A number with room is the one that is kept. -/
theorem toInt_of_hasRoom (h : HasRoom x) : (Int64.ofInt x).toInt = x :=
  Int64.toInt_ofInt_of_le h.1 (Int.lt_add_one_of_le h.2)

theorem hasRoom_toInt (n : Int64) : HasRoom n.toInt :=
  ⟨n.minValue_le_toInt, n.toInt_le⟩

/-- **A number is checked** for room before it is kept. -/
theorem int64?_eq (x : Int) :
    HasRoom x ∧ int64? x = .ok (.int (Int64.ofInt x)) ∨ ¬ HasRoom x ∧ int64? x = .error .overflow := by
  have hroom : HasRoom x ↔ -(maxInt : Int) - 1 ≤ x ∧ x ≤ maxInt := by
    rw [HasRoom, Int64.toInt_minValue, Int64.toInt_maxValue, maxInt]
    omega
  by_cases h : HasRoom x
  · exact .inl ⟨h, if_pos (hroom.mp h)⟩
  · exact .inr ⟨h, if_neg (mt hroom.mpr h)⟩

/-- Of the ways to combine values, whole numbers take the checked one. -/
theorem combine_ints (op : BinaryOp) (m n : Int64) :
    combine op (.int m) (.int n) = int64? (op.onInts m.toInt n.toInt) := by
  cases op <;> rfl

/-! ### Parts -/

/-- A value is determined by the expression. -/
theorem Expr.Denotes.unique (hx : e.Denotes lookup x) (hy : e.Denotes lookup y) : x = y := by
  induction hx generalizing y with
  | literal n => cases hy; rfl
  | @var name n h =>
      cases hy with
      | var h' =>
          rw [h] at h'
          cases h'
          rfl
  | neg h ih =>
      cases hy with
      | neg h' => rw [ih h']
  | sum hl hr ihl ihr =>
      cases hy with
      | sum hl' hr' => rw [ihl hl', ihr hr']
  | difference hl hr ihl ihr =>
      cases hy with
      | difference hl' hr' => rw [ihl hl', ihr hr']
  | product hl hr ihl ihr =>
      cases hy with
      | product hl' hr' => rw [ihl hl', ihr hr']

namespace Expr

/-- A negation fits if its operand does and its own value does. -/
theorem fits_neg (h : (neg e).Denotes lookup x) : (neg e).Fits lookup ↔ e.Fits lookup ∧ HasRoom x := by
  constructor
  · intro hfits
    exact ⟨fun part y hpart => hfits part y (.operand hpart), hfits _ x .whole h⟩
  · -- A part is the whole, whose value is the given one, or a part of the operand.
    intro ⟨hoperand, hroom⟩ part y hpart hy
    cases hpart with
    | whole => exact hy.unique h ▸ hroom
    | operand hpart => exact hoperand part y hpart hy

/-- So does an operation, if both operands do. -/
theorem fits_binary (h : (binary op lhs rhs).Denotes lookup x) :
    (binary op lhs rhs).Fits lookup ↔ lhs.Fits lookup ∧ rhs.Fits lookup ∧ HasRoom x := by
  constructor
  · intro hfits
    exact ⟨fun part y hpart => hfits part y (.left hpart), fun part y hpart => hfits part y (.right hpart),
      hfits _ x .whole h⟩
  · intro ⟨hl, hr, hroom⟩ part y hpart hy
    cases hpart with
    | whole => exact hy.unique h ▸ hroom
    | left hpart => exact hl part y hpart hy
    | right hpart => exact hr part y hpart hy

/-- An expression that spares the least number does so in its operands. -/
theorem SparesLeast.operand (h : (neg e).SparesLeast lookup) : e.SparesLeast lookup :=
  fun operand hpart => h operand (.operand hpart)

theorem SparesLeast.left (h : (binary op lhs rhs).SparesLeast lookup) : lhs.SparesLeast lookup :=
  fun operand hpart => h operand (.left hpart)

theorem SparesLeast.right (h : (binary op lhs rhs).SparesLeast lookup) : rhs.SparesLeast lookup :=
  fun operand hpart => h operand (.right hpart)

/-- What has no parts fits: its value is one that was kept. -/
theorem fits_of_atom (hatom : ∀ part : Expr, part.IsPartOf e → part = e) {n : Int64}
    (h : e.Denotes lookup n.toInt) : e.Fits lookup := by
  intro part y hpart hy
  rw [hatom part hpart] at hy
  exact hy.unique h ▸ hasRoom_toInt n

end Expr

/-! ### Evaluation -/

/-- What evaluation has to give for an expression of that value: the value if everything fits, and otherwise
the fault of a number that has no room. -/
def Expr.EvaluatesTo (lookup : String → Option Value) (e : Expr) (x : Int) : Prop :=
  e.Fits lookup ∧ e.eval lookup = .ok (.int (Int64.ofInt x)) ∨
    ¬ e.Fits lookup ∧ e.eval lookup = .error .overflow

theorem Expr.EvaluatesTo.neg (h : e.EvaluatesTo lookup x) (hx : e.Denotes lookup x)
    (hleast : x ≠ Int64.minValue.toInt) : (Expr.neg e).EvaluatesTo lookup (-x) := by
  have hfits := fits_neg (.neg hx)
  rcases h with ⟨hoperand, heval⟩ | ⟨hoperand, heval⟩
  · -- The range has one number more below zero than above, and that one is excluded.
    have hroom : HasRoom x := hoperand e x .whole hx
    have hneg : HasRoom (-x) := by
      rw [HasRoom, Int64.toInt_minValue, Int64.toInt_maxValue] at hroom ⊢
      rw [Int64.toInt_minValue] at hleast
      omega
    refine .inl ⟨hfits.mpr ⟨hoperand, hneg⟩, ?_⟩
    rw [Expr.eval, heval]
    show Except.ok (Value.int (-Int64.ofInt x)) = _
    rw [Int64.ofInt_neg]
  · refine .inr ⟨fun h => hoperand (hfits.mp h).1, ?_⟩
    rw [Expr.eval, heval]
    rfl

theorem Expr.EvaluatesTo.binary (hl : lhs.EvaluatesTo lookup x) (hr : rhs.EvaluatesTo lookup y)
    (hx : lhs.Denotes lookup x) (hy : rhs.Denotes lookup y)
    (h : (Expr.binary op lhs rhs).Denotes lookup (op.onInts x y)) :
    (Expr.binary op lhs rhs).EvaluatesTo lookup (op.onInts x y) := by
  have hfits := fits_binary h
  rcases hl with ⟨hlhs, hleval⟩ | ⟨hlhs, hleval⟩
  · rcases hr with ⟨hrhs, hreval⟩ | ⟨hrhs, hreval⟩
    · -- Both operands have room, so that the operation meets their exact values.
      have heval : (Expr.binary op lhs rhs).eval lookup = int64? (op.onInts x y) := by
        rw [Expr.eval, hleval, hreval]
        show combine op _ _ = _
        rw [combine_ints, toInt_of_hasRoom (hlhs lhs x .whole hx), toInt_of_hasRoom (hrhs rhs y .whole hy)]
      rcases int64?_eq (op.onInts x y) with ⟨hroom, hkept⟩ | ⟨hroom, hkept⟩
      · exact .inl ⟨hfits.mpr ⟨hlhs, hrhs, hroom⟩, heval.trans hkept⟩
      · exact .inr ⟨fun h => hroom (hfits.mp h).2.2, heval.trans hkept⟩
    · refine .inr ⟨fun h => hrhs (hfits.mp h).2.1, ?_⟩
      rw [Expr.eval, hleval, hreval]
      rfl
  · refine .inr ⟨fun h => hlhs (hfits.mp h).1, ?_⟩
    rw [Expr.eval, hleval]
    rfl

/-- **Evaluation is exact** on whole numbers, or it fails. -/
theorem Expr.Denotes.evaluatesTo (h : e.Denotes lookup x) (hleast : e.SparesLeast lookup) :
    e.EvaluatesTo lookup x := by
  -- On the way in which the value comes about; what spares the least number does so in its operands.
  induction h with
  | literal n =>
      refine .inl ⟨fits_of_atom (fun part hpart => ?_) (.literal n), ?_⟩
      · cases hpart; rfl
      · rw [Expr.eval, Int64.ofInt_toInt]
  | var h =>
      refine .inl ⟨fits_of_atom (fun part hpart => ?_) (.var h), ?_⟩
      · cases hpart; rfl
      · rw [Expr.eval, h, Int64.ofInt_toInt]
  | neg h ih =>
      refine (ih hleast.operand).neg h ?_
      rintro rfl
      exact hleast _ .whole h
  | sum hl hr ihl ihr => exact (ihl hleast.left).binary (ihr hleast.right) hl hr (.sum hl hr)
  | difference hl hr ihl ihr => exact (ihl hleast.left).binary (ihr hleast.right) hl hr (.difference hl hr)
  | product hl hr ihl ihr => exact (ihl hleast.left).binary (ihr hleast.right) hl hr (.product hl hr)

/-- **Arithmetic is exact or fails.** Take an expression of whole numbers that negates the least number
nowhere, in any state of an interpreter. If the exact values of all its parts have 64 bits, then its value is
the exact one, and a statement stores or prints just this number. Otherwise there is no value, and the
statement fails at its line. -/
theorem arithmetic_is_exact (i : Interpreter) {e : Expr} {x : Int} (h : e.Denotes i.lookup x)
    (hleast : e.SparesLeast i.lookup) :
    (e.Fits i.lookup →
      (∃ n : Int64, e.eval i.lookup = .ok (.int n) ∧ n.toInt = x) ∧
        ∀ enter line name,
          runAction enter line i (.assign name e) =
              succeed { i with heap := i.heap.set i.currentScope name (.int (Int64.ofInt x)) } ∧
            runAction enter line i (.print e) = succeed { i with output := i.output.push (toString x) }) ∧
      (¬ e.Fits i.lookup →
        e.eval i.lookup = .error .overflow ∧
          ∀ enter line name,
            runAction enter line i (.assign name e) = fail i (.evaluation line .overflow) ∧
              runAction enter line i (.print e) = fail i (.evaluation line .overflow)) := by
  rcases h.evaluatesTo hleast with ⟨hfits, heval⟩ | ⟨hfits, heval⟩
  · have hexact : (Int64.ofInt x).toInt = x := toInt_of_hasRoom (hfits e x .whole h)
    refine ⟨fun _ => ⟨⟨_, heval, hexact⟩, fun enter line name => ⟨?_, ?_⟩⟩,
      fun hnot => absurd hfits hnot⟩
    · rw [runAction, heval]
    · rw [runAction, heval]
      simp only [Value.display, hexact]
  · refine ⟨fun h => absurd h hfits, fun _ => ⟨heval, fun enter line name => ⟨?_, ?_⟩⟩⟩
    · rw [runAction, heval]
    · rw [runAction, heval]

/-- Both ends of the range, in a script whose `high` is the greatest number: `-high - 1` is the least one, and
`high + 1 - 1` fails, although its value has room. -/
theorem arithmetic_is_exact_atTheEnds :
    let i : Interpreter := { heap := (Heap.create {}).set globalScope "high" (.int Int64.maxValue) }
    let low : Expr := .binary .sub (.neg (.var "high")) (.literal (.int 1))
    let detour : Expr := .binary .sub (.binary .add (.var "high") (.literal (.int 1))) (.literal (.int 1))
    (low.Denotes i.lookup Int64.minValue.toInt ∧ low.SparesLeast i.lookup ∧ low.Fits i.lookup ∧
        ∃ n : Int64, low.eval i.lookup = .ok (.int n) ∧ n.toInt = Int64.minValue.toInt) ∧
      (detour.Denotes i.lookup Int64.maxValue.toInt ∧ detour.SparesLeast i.lookup ∧ ¬ detour.Fits i.lookup ∧
        runAction (enter 0) 3 i (.print detour) = fail i (.evaluation 3 .overflow)) := by
  intro i low detour
  have hhigh : (Expr.var "high").Denotes i.lookup Int64.maxValue.toInt := .var rfl
  have hone : (Expr.literal (.int 1)).Denotes i.lookup 1 := .literal 1
  have hends : -Int64.maxValue.toInt - 1 = Int64.minValue.toInt := by decide
  have hlow : low.Denotes i.lookup Int64.minValue.toInt := hends ▸ .difference (.neg hhigh) hone
  have hnext : (Expr.binary .add (.var "high") (.literal (.int 1))).Denotes i.lookup
      (Int64.maxValue.toInt + 1) := .sum hhigh hone
  have hdetour : detour.Denotes i.lookup Int64.maxValue.toInt := .difference hnext hone
  have hspares : low.SparesLeast i.lookup := by
    intro operand hpart hleast
    unfold low at hpart
    cases hpart with
    | left hpart =>
        cases hpart with
        | whole => exact absurd (hhigh.unique hleast) (by decide)
        | operand hpart => cases hpart
    | right hpart => cases hpart
  have hspares' : detour.SparesLeast i.lookup := by
    intro operand hpart
    unfold detour at hpart
    cases hpart with
    | left hpart =>
        cases hpart with
        | left hpart | right hpart => cases hpart
    | right hpart => cases hpart
  have hfits : low.Fits i.lookup := by
    have hvar : (Expr.var "high").Fits i.lookup :=
      Expr.fits_of_atom (fun part hpart => by cases hpart; rfl) hhigh
    have hliteral : (Expr.literal (.int 1)).Fits i.lookup :=
      Expr.fits_of_atom (fun part hpart => by cases hpart; rfl) (.literal 1)
    exact (Expr.fits_binary hlow).mpr
      ⟨(Expr.fits_neg (.neg hhigh)).mpr ⟨hvar, by decide, by decide⟩, hliteral, by decide, by decide⟩
  -- The sum on the way is one more than the greatest number.
  have hnot : ¬ detour.Fits i.lookup := fun h => absurd (h _ _ (.left .whole) hnext).2 (by decide)
  exact ⟨⟨hlow, hspares, hfits, ((arithmetic_is_exact i hlow hspares).1 hfits).1⟩,
    hdetour, hspares', hnot, (((arithmetic_is_exact i hdetour hspares').2 hnot).2 (enter 0) 3 "x").2⟩

end Pausepoint.Language
