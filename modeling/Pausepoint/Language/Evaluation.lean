import Pausepoint.Language.Expr

/-!
# Evaluation of expressions

Operands are evaluated from left to right, and the first fault ends the evaluation. Addition with a text
on either side joins the texts that printing would give, addition of two lists joins the lists, and
arithmetic on whole numbers stays whole: a result outside 64 bits is a fault. One whole number and one
float are taken as floats.
-/

namespace Pausepoint.Language

/-- What can go wrong when an expression is evaluated. -/
inductive EvalFault
  /-- A variable is bound nowhere. -/
  | unknownVariable (name : String)
  /-- A value of this type has no negation. -/
  | cannotNegate (type : String)
  /-- A whole number leaves the range of 64 bits. -/
  | overflow
  /-- Values of these types cannot be combined. -/
  | unsupported (lhs rhs : String)
  deriving Repr, DecidableEq

/-- A whole number if it has 64 bits. -/
def int64? (n : Int) : Except EvalFault Value :=
  if -(maxInt : Int) - 1 ≤ n ∧ n ≤ maxInt then .ok (.int (Int64.ofInt n)) else .error .overflow

/-- The operation of an operator on whole numbers, exactly. -/
def BinaryOp.onInts : BinaryOp → Int → Int → Int
  | .add => (· + ·)
  | .sub => (· - ·)
  | .mul => (· * ·)

/-- The operation of an operator on floats. -/
def BinaryOp.onFloats : BinaryOp → Float → Float → Float
  | .add => (· + ·)
  | .sub => (· - ·)
  | .mul => (· * ·)

/-- A number as a float. -/
def float? : Value → Option Float
  | .int n => some n.toFloat
  | .float x => some x
  | _ => none

/-- Combines two numbers of which one at least is a float. -/
def combineFloats (op : BinaryOp) (lhs rhs : Value) : Except EvalFault Value :=
  match float? lhs, float? rhs with
  | some x, some y => .ok (.float (op.onFloats x y))
  | _, _ => .error (.unsupported lhs.typeName rhs.typeName)

/-- Applies an operator to two values. -/
def combine : BinaryOp → Value → Value → Except EvalFault Value
  | .add, .string s, rhs => .ok (.string (s ++ rhs.display))
  | .add, lhs, .string s => .ok (.string (lhs.display ++ s))
  | .add, .list xs, .list ys => .ok (.list (xs ++ ys))
  | op, .int m, .int n => int64? (op.onInts m.toInt n.toInt)
  | op, lhs, rhs => combineFloats op lhs rhs

/-- Negates a value. -/
def negate : Value → Except EvalFault Value
  | .int n => .ok (.int (-n))
  | .float x => .ok (.float (-x))
  | v => .error (.cannotNegate v.typeName)

mutual

/-- The value of an expression, given the values of variables. -/
def Expr.eval (lookup : String → Option Value) : Expr → Except EvalFault Value
  | .literal v => .ok v
  | .var name =>
      match lookup name with
      | some v => .ok v
      | none => .error (.unknownVariable name)
  | .list items => (evalItems lookup items).map .list
  | .neg operand => do negate (← operand.eval lookup)
  | .binary op lhs rhs => do
      let l ← lhs.eval lookup
      let r ← rhs.eval lookup
      combine op l r

/-- The values of the items of a list, from left to right. -/
def evalItems (lookup : String → Option Value) : List Expr → Except EvalFault (List Value)
  | [] => .ok []
  | item :: rest => do
      let v ← item.eval lookup
      let vs ← evalItems lookup rest
      return v :: vs

end

end Pausepoint.Language
