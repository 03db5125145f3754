import SlotC.Program.Basic
import SlotC.Token.Outline

/-! Dumps of programs. -/

namespace SlotC

open Text

/-- An operator in a dump. -/
def BinaryOp.outline : BinaryOp → Outline
  | .add => .word "Add"
  | .subtract => .word "Substract"
  | .multiply => .word "Multiply"
  | .divide => .word "Div"
  | .equal => .word "IsEqual"
  | .notEqual => .word "IsNotEqual"
  | .less => .word "LessThan"
  | .lessEqual => .word "LessOrEqual"

/-- The index of a variable in a dump. -/
def outlineId (id : Nat) : Outline :=
  .applied "LVarId" [.word (toString id)]

mutual

/-- An expression in a dump. -/
def Expr.outline : Expr → Outline
  | .constant value => .applied "Constant" [.word (toString value.toInt)]
  | .var id => .applied "Var" [outlineId id]
  | .binary op left right => .applied "Binary" [op.outline, left.outline, right.outline]
  | .assign target value => .applied "Assign" [target.outline, value.outline]
  | .addressOf operand => .applied "AddrOf" [operand.outline]
  | .deref operand => .applied "Deref" [operand.outline]
  | .call name arguments =>
    .applied "Call" [.word (quoted name), .list (outlineExprs arguments)]

/-- Expressions in a dump. -/
def outlineExprs : List Expr → List Outline
  | [] => []
  | e :: es => e.outline :: outlineExprs es

end

mutual

/-- A statement in a dump. -/
def Stmt.outline : Stmt → Outline
  | .expr value => .applied "Exp" [value.outline]
  | .block body => .applied "Block" [.list (outlineStmts body)]
  | .branch condition whenTrue whenFalse =>
    .record "If" [("condition", condition.outline), ("then", whenTrue.outline),
      ("els", match whenFalse with
        | none => .optional none
        | some s => .optional (some s.outline))]
  | .whileLoop condition body =>
    .record "While" [("condition", condition.outline), ("body", body.outline)]
  | .forLoop start condition step body =>
    .record "For"
      [("init", .optional (start.map Expr.outline)),
        ("condition", .optional (condition.map Expr.outline)),
        ("post", .optional (step.map Expr.outline)), ("body", body.outline)]
  | .ret value => .applied "Return" [value.outline]
  | .declare id => .applied "Declaration" [outlineId id]

/-- Statements in a dump. -/
def outlineStmts : List Stmt → List Outline
  | [] => []
  | s :: ss => s.outline :: outlineStmts ss

end

/-- A variable in a dump. -/
def Variable.outline (v : Variable) : Outline :=
  .record "LVar"
    [("name", .word (quoted v.name)), ("kind", v.scalar.outline),
      ("offset", .word (toString v.offset)), ("pointers", .word (toString v.pointers)),
      ("array_len", .word (toString v.arrayLength)),
      ("arg_index", .optional (v.argIndex.map fun index => .word (toString index)))]

/-- A function in a dump. -/
def Function.outline (f : Function) : Outline :=
  .record "Function"
    [("name", .word (quoted f.name)), ("params", .word (toString f.paramCount)),
      ("locals", .list (f.locals.map Variable.outline)),
      ("body", .list (outlineStmts f.body))]

/-- A program in a dump. -/
def Program.outline (program : Program) : Outline :=
  .record "Program" [("functions", .list (program.functions.map Function.outline))]

end SlotC
