import SlotC.Code.Emit

/-! Code of expressions. The code of an expression leaves one value on the stack: that of
the expression, or its address where the expression is to be written to.
-/

namespace SlotC

namespace BinaryOp

/-- The arithmetic instruction of an operator, if it has one. -/
def arith? : BinaryOp → Option Arith
  | .add => some .add
  | .subtract => some .sub
  | .multiply => some .imul
  | _ => none

/-- The relation that an operator tests, if it compares. -/
def condition? : BinaryOp → Option Condition
  | .equal => some .e
  | .notEqual => some .ne
  | .less => some .l
  | .lessEqual => some .le
  | _ => none

/-- The instructions that apply an operator to `rax` and `rdi` and leave the result in
`rax`.
-/
def instrs (op : BinaryOp) : List Instr :=
  match op.arith?, op.condition? with
  | some arith, _ => [.arith arith (.reg .rax) (.reg .rdi)]
  | none, some condition =>
    [.cmp (.reg .rax) (.reg .rdi), .set condition .al, .movzb .rax .al]
  | none, none => [.cqo, .idiv (.reg .rdi)]

end BinaryOp

/-- Whether a number is a signed 32-bit number. -/
def fitsInt32 (value : Int) : Bool :=
  -0x80000000 ≤ value && value ≤ 0x7fffffff

/-- Bytes that the right operand of an additive operator counts in, if the left operand is
a variable that holds an address.
-/
def pointerStep? (f : Function) (op : BinaryOp) : Expr → Option Nat
  | .var id =>
    if op.isAdditive then
      ((f.get? id).filter Variable.isPointer).map Variable.pointeeSize
    else none
  | _ => none

namespace Emit

/-- The variable of a function with the given index. -/
def variableOf (f : Function) (id : Nat) : Emit Variable :=
  match f.get? id with
  | some v => pure v
  | none => fail (.undeclared id f.name)

/-- Pushes the address of a variable. -/
def address (v : Variable) : Emit Unit := do
  instr (.mov (.reg .rax) (.reg .rbp))
  instr (.arith .sub (.reg .rax) (.imm v.offset))
  push (.reg .rax)

/-- Pushes a number. Only a signed 32-bit number can be pushed as it is. -/
def constant (value : Int64) : Emit Unit :=
  if fitsInt32 value.toInt then push (.imm value.toInt)
  else do
    instr (.mov (.reg .rax) (.imm value.toInt))
    push (.reg .rax)

/-- Refuses an array as the target of an assignment. -/
def checkTarget (f : Function) : Expr → Emit Unit
  | .var id => do
    let v ← variableOf f id
    if v.isArray then fail (.assignToArray v.name) else pure ()
  | _ => pure ()

/-- Writes the value on top of the stack to the address below it, and leaves the value. -/
def store : Emit Unit := do
  pop .rdi
  pop .rax
  instr (.mov (.mem .rax) (.reg .rdi))
  push (.reg .rdi)

/-- Scales the right operand in `rdi`, if it counts in more than bytes. -/
def scale : Option Nat → Emit Unit
  | some step => instr (.arith .imul (.reg .rdi) (.imm step))
  | none => pure ()

/-- Applies an operator to the two values on top of the stack. -/
def operate (op : BinaryOp) (step : Option Nat) : Emit Unit := do
  pop .rdi
  pop .rax
  scale step
  lines (op.instrs.map .instr)
  push (.reg .rax)

/-- Pops values into registers, in order. -/
def popAll : List Register → Emit Unit
  | [] => pure ()
  | register :: registers => do
    pop register
    popAll registers

/-- The call itself, with `rsp` moved by one slot around it if the stack holds an odd number
of values.
-/
def alignedCall (name : String) : Emit Unit := do
  let depth ← depth
  let call := [Line.instr (.mov (.reg .rax) (.imm 0)), .instr (.call name)]
  if depth % 2 = 0 then lines call
  else
    lines ([.instr (.arith .sub (.reg .rsp) (.imm slotSize))] ++ call
      ++ [.instr (.arith .add (.reg .rsp) (.imm slotSize))])

/-- Calls a function with the topmost `count` values of the stack as arguments. -/
def callWith (name : String) (count : Nat) : Emit Unit := do
  popAll (Register.forArguments.take count).reverse
  alignedCall name
  push (.reg .rax)

mutual

/-- Code that pushes the value of an expression. -/
def value (f : Function) : Expr → Emit Unit
  | .constant value => constant value
  | .var id => do
    let v ← variableOf f id
    address v
    if v.isArray then pure () else load
  | .binary op left right => do
    value f left
    value f right
    operate op (pointerStep? f op left)
  | .assign target source => do
    checkTarget f target
    place f target
    value f source
    store
  | .addressOf operand => place f operand
  | .deref operand => do
    value f operand
    load
  | .call name arguments =>
    if Register.forArguments.length < arguments.length then
      fail (.tooManyArguments name arguments.length)
    else do
      values f arguments
      callWith name arguments.length

/-- Code that pushes the address of what an expression denotes. -/
def place (f : Function) : Expr → Emit Unit
  | .var id => do
    let v ← variableOf f id
    address v
  | .deref operand => value f operand
  | e => fail (.notAnLvalue e)

/-- Code that pushes the values of expressions, in order. -/
def values (f : Function) : List Expr → Emit Unit
  | [] => pure ()
  | e :: es => do
    value f e
    values f es

end

end Emit

end SlotC
