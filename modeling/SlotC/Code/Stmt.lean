import SlotC.Code.Expr

/-! Code of statements. Like that of an expression, the code of a statement accounts for one
value on the stack.
-/

namespace SlotC.Emit

/-- Code of an expression that is run only for its effects, if it is there. -/
def effect (f : Function) : Option Expr → Emit Unit
  | none => pure ()
  | some e => do
    value f e
    pop .rax

/-- Code that goes to the label if the condition, if there is one, is zero. -/
def leaveUnless (f : Function) (l : Label) : Option Expr → Emit Unit
  | none => pure ()
  | some e => do
    value f e
    jumpIfZero l

mutual

/-- Code of a statement. The branches of a conditional statement start at the same depth,
and code after a return is never reached, so the return counts as if it left its value.
-/
def stmt (f : Function) : Stmt → Emit Unit
  | .expr e => value f e
  | .block body => do
    stmts f body
    push (.reg .rax)
  | .branch condition whenTrue whenFalse => do
    let id ← freshLabel
    value f condition
    jumpIfZero (.otherwise id)
    let entry ← depth
    stmt f whenTrue
    instr (.jmp (.finish id))
    label (.otherwise id)
    setDepth entry
    match whenFalse with
    | some s => stmt f s
    | none => push (.imm 0)
    label (.finish id)
  | .whileLoop condition body => do
    let id ← freshLabel
    label (.start id)
    leaveUnless f (.finish id) (some condition)
    stmt f body
    pop .rax
    instr (.jmp (.start id))
    label (.finish id)
    push (.imm 0)
  | .forLoop start condition step body => do
    let id ← freshLabel
    effect f start
    label (.start id)
    leaveUnless f (.finish id) condition
    stmt f body
    pop .rax
    effect f step
    instr (.jmp (.start id))
    label (.finish id)
    push (.imm 0)
  | .ret e => do
    value f e
    pop .rax
    epilogue
    shiftDepth 1
  | .declare _ => push (.imm 0)

/-- Code of statements, each of which drops its value. -/
def stmts (f : Function) : List Stmt → Emit Unit
  | [] => pure ()
  | s :: ss => do
    stmt f s
    pop .rax
    stmts f ss

end

end SlotC.Emit
