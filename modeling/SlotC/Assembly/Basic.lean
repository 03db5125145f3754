/-! Assembly for a 64-bit machine: the instructions that compiled functions are made of, and
listings of them.
-/

namespace SlotC

/-- A register. `al` is the lowest byte of `rax`. -/
inductive Register where
  | rax
  | rdi
  | rsi
  | rdx
  | rcx
  | r8
  | r9
  | rbp
  | rsp
  | al
deriving DecidableEq, Repr

/-- The registers that carry the arguments of a call, in order. -/
def Register.forArguments : List Register :=
  [.rdi, .rsi, .rdx, .rcx, .r8, .r9]

/-- What an instruction works on: a number, a register, the memory that a register points
to, or the memory at an offset below the base of the frame.
-/
inductive Operand where
  | imm (value : Int)
  | reg (register : Register)
  | mem (register : Register)
  | stack (offset : Int)
deriving DecidableEq, Repr

/-- A relation that a comparison may have found. -/
inductive Condition where
  | e
  | ne
  | l
  | le
deriving DecidableEq, Repr

/-- An arithmetic instruction that leaves its result in its first operand. -/
inductive Arith where
  | add
  | sub
  | imul
deriving DecidableEq, Repr

/-- A place in a listing: a function, or a point in the code of a statement. -/
inductive Label where
  | symbol (name : String)
  | otherwise (id : Nat)
  | finish (id : Nat)
  | start (id : Nat)
deriving DecidableEq, Repr

/-- An instruction. Where it has two operands, the first is the one that is written. -/
inductive Instr where
  | push (operand : Operand)
  | pop (register : Register)
  | mov (target source : Operand)
  | movzb (target source : Register)
  | arith (op : Arith) (target source : Operand)
  | cqo
  | idiv (divisor : Operand)
  | cmp (left right : Operand)
  | set (condition : Condition) (register : Register)
  | jmp (label : Label)
  | jmpIf (condition : Condition) (label : Label)
  | call (name : String)
  | ret
deriving DecidableEq, Repr

/-- A line for the assembler itself. -/
inductive Directive where
  | intel
  | globl (name : String)
deriving DecidableEq, Repr

/-- A line of a listing. -/
inductive Line where
  | directive (directive : Directive)
  | label (label : Label)
  | instr (instr : Instr)
deriving DecidableEq, Repr

/-- An assembly text as lines. -/
abbrev Listing := List Line

namespace Listing

/-- The instructions of a listing, in order. -/
def instrs (listing : Listing) : List Instr :=
  listing.filterMap fun
    | .instr instr => some instr
    | _ => none

/-- The labels that a listing defines, in order. -/
def labels (listing : Listing) : List Label :=
  listing.filterMap fun
    | .label label => some label
    | _ => none

/-- The lines before all functions: they call `main` and return what it returns. -/
def preamble : Listing :=
  [.directive .intel, .instr (.mov (.reg .rax) (.imm 0)), .instr (.call "main"), .instr .ret]

end Listing

end SlotC
