import SlotC.Program.Expr
import SlotC.Token.Basic

/-! Operators between two operands: which kinds of token are one, how tightly they bind and
what they build.
-/

namespace SlotC

/-- An operator of the source text. A `flipped` one builds its operation with the operands
exchanged: `a > b` is `b < a`.
-/
inductive Operator where
  | assign
  | direct (op : BinaryOp)
  | flipped (op : BinaryOp)
deriving DecidableEq, Repr

/-- The operation that a kind of token stands for with its operands in order. -/
def Kind.binaryOp? : Kind → Option BinaryOp
  | .plus => some .add
  | .minus => some .subtract
  | .star => some .multiply
  | .slash => some .divide
  | .equal => some .equal
  | .notEqual => some .notEqual
  | .less => some .less
  | .lessEqual => some .lessEqual
  | _ => none

/-- The operator that a kind of token stands for. -/
def Kind.operator? : Kind → Option Operator
  | .assign => some .assign
  | .greater => some (.flipped .less)
  | .greaterEqual => some (.flipped .lessEqual)
  | kind => kind.binaryOp?.map .direct

/-- How tightly an operation binds. -/
def BinaryOp.precedence : BinaryOp → Nat
  | .multiply | .divide => 50
  | .add | .subtract => 45
  | .less | .lessEqual => 35
  | .equal | .notEqual => 30

namespace Operator

/-- How tightly the operator binds. -/
def precedence : Operator → Nat
  | .assign => 1
  | .direct op | .flipped op => op.precedence

/-- The least precedence of an operator inside the right operand: assignment groups to the
right and every other operator to the left.
-/
def rightPrecedence : Operator → Nat
  | .assign => precedence .assign
  | operator => operator.precedence + 1

/-- The expression that the operator builds. -/
def build : Operator → Expr → Expr → Expr
  | .assign, left, right => .assign left right
  | .direct op, left, right => .binary op left right
  | .flipped op, left, right => .binary op right left

end Operator

end SlotC
