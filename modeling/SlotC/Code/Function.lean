import SlotC.Code.Stmt

/-! Code of functions and programs. -/

namespace SlotC

/-- A number rounded to a multiple of sixteen: up if it is positive. -/
def roundUp16 (value : Int) : Int :=
  (value + 15).tdiv 16 * 16

namespace Emit

/-- Code that makes room for the variables. -/
def prologue (name : String) (frame : Int) : Emit Unit := do
  lines [.directive (.globl name), .label (.symbol name), .instr (.push (.reg .rbp)),
    .instr (.mov (.reg .rbp) (.reg .rsp))]
  if 0 < frame then instr (.arith .sub (.reg .rsp) (.imm frame)) else pure ()

/-- Code that moves parameters from their registers into the frame. -/
def spill : List Variable → Emit Unit
  | [] => pure ()
  | v :: vs =>
    match v.argIndex.bind fun index => Register.forArguments[index]? with
    | some register => do
      instr (.mov (.stack v.offset) (.reg register))
      spill vs
    | none => fail (.noRegister v.name)

/-- Code of a function. -/
def function (f : Function) : Emit Unit :=
  let frame := roundUp16 f.frameSize
  if fitsInt32 frame then do
    prologue f.name frame
    spill f.params
    setDepth 0
    stmts f f.body
    epilogue
    let depth ← depth
    if depth = 0 then pure () else fail (.unbalanced depth f.name)
  else fail (.frameTooLarge f.name)

/-- Code of functions, in order. -/
def functions : List Function → Emit Unit
  | [] => pure ()
  | f :: fs => do
    function f
    functions fs

end Emit

/-- The code of a program. One count of labels runs through all its functions. -/
def Program.listing (program : Program) : Except CodeError Listing :=
  let emission := Emit.functions program.functions .initial
  emission.outcome.map fun _ => emission.lines

end SlotC
