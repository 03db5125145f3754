import SlotC.Scalar

/-! Expressions and statements of a program, with every variable replaced by its index in
the frame of the function.
-/

namespace SlotC

/-- An operator with two operands. -/
inductive BinaryOp where
  | add
  | subtract
  | multiply
  | divide
  | equal
  | notEqual
  | less
  | lessEqual
deriving DecidableEq, Repr

/-- Whether the operator moves a pointer when its left operand is one. -/
def BinaryOp.isAdditive : BinaryOp → Bool
  | .add | .subtract => true
  | _ => false

/-- An expression. The arguments of a call stand in source order. -/
inductive Expr where
  | constant (value : Int64)
  | var (id : Nat)
  | binary (op : BinaryOp) (left right : Expr)
  | assign (target value : Expr)
  | addressOf (operand : Expr)
  | deref (operand : Expr)
  | call (name : String) (arguments : List Expr)
deriving Repr

/-- A statement. Each part of the head of a `forLoop` may be absent. -/
inductive Stmt where
  | expr (value : Expr)
  | block (body : List Stmt)
  | branch (condition : Expr) (whenTrue : Stmt) (whenFalse : Option Stmt)
  | whileLoop (condition : Expr) (body : Stmt)
  | forLoop (start condition step : Option Expr) (body : Stmt)
  | ret (value : Expr)
  | declare (id : Nat)
deriving Repr

end SlotC
