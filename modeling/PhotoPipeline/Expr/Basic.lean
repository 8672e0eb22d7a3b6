/-
**Expressions over the size of an image.**

An expression computes a number from the width and the height of the image at hand.  It has
number literals, the two dimensions, negation and five binary operators.

Main definitions:

* `PhotoPipeline.Expr` — expressions;
* `PhotoPipeline.Expr.eval` — the value for an image of given size;
* `PhotoPipeline.Expr.usesImage` — whether a dimension occurs.

Main results:

* `PhotoPipeline.Expr.eval_congr` — an expression without dimensions has one value.
-/
import PhotoPipeline.Number.Remainder

set_option relaxedAutoImplicit false
set_option autoImplicit false

namespace PhotoPipeline

/-- The dimensions of an image. -/
inductive Dimension where
  | width
  | height
  deriving DecidableEq, Repr

/-- The binary operators. -/
inductive BinaryOp where
  | add
  | sub
  | mul
  | div
  | rem
  deriving DecidableEq, Repr

namespace BinaryOp

/-- The sign of an operator. -/
def char : BinaryOp → Char
  | add => '+'
  | sub => '-'
  | mul => '*'
  | div => '/'
  | rem => '%'

/-- How tightly an operator binds. -/
def precedence : BinaryOp → Nat
  | add | sub => 1
  | mul | div | rem => 2

end BinaryOp

/-- Expressions. -/
inductive Expr where
  | number (value : Float)
  | dimension (d : Dimension)
  | neg (e : Expr)
  | binary (op : BinaryOp) (lhs rhs : Expr)

/-- What can go wrong when an expression is evaluated. -/
inductive EvalError where
  | divisionByZero
  deriving DecidableEq, Repr

/-- The wording of an evaluation error. -/
def EvalError.message : EvalError → String
  | divisionByZero => "division by zero"

/-- The value of an operator; dividing by a zero of either sign is an error. -/
def BinaryOp.apply (op : BinaryOp) (a b : Float) : Except EvalError Float :=
  match op with
  | add => .ok (a + b)
  | sub => .ok (a - b)
  | mul => .ok (a * b)
  | div => if b == 0 then .error .divisionByZero else .ok (a / b)
  | rem => if b == 0 then .error .divisionByZero else .ok (remainder a b)

namespace Expr

/-- The value for an image of the given size; operands are evaluated from the left. -/
def eval (width height : Float) : Expr → Except EvalError Float
  | number value => .ok value
  | dimension .width => .ok width
  | dimension .height => .ok height
  | neg e => (eval width height e).map fun x => -x
  | binary op lhs rhs =>
    match eval width height lhs with
    | .error e => .error e
    | .ok a =>
      match eval width height rhs with
      | .error e => .error e
      | .ok b => op.apply a b

/-- Whether the value depends on an image. -/
def usesImage : Expr → Bool
  | number _ => false
  | dimension _ => true
  | neg e => usesImage e
  | binary _ lhs rhs => usesImage lhs || usesImage rhs

theorem eval_congr {e : Expr} (h : e.usesImage = false) (w h₁ w' h' : Float) :
    e.eval w h₁ = e.eval w' h' := by
  induction e with
  | number => rfl
  | dimension d => exact nomatch h
  | neg e ih => rw [eval, eval, ih h]
  | binary op lhs rhs ihl ihr =>
    obtain ⟨hl, hr⟩ := Bool.or_eq_false_iff.1 h
    rw [eval, eval, ihl hl, ihr hr]

end Expr

end PhotoPipeline
