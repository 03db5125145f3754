import SlotC.Assembly.Basic
import SlotC.Proofs.Machine.Memory

/-! The machine that listings run on: its registers, flags and memory, and what each
instruction that does not move control does to them. A called function is not part of the
machine. Its effects are an answer from outside.
-/

namespace SlotC

/-- What a comparison or a sum has found about its result. -/
structure Flags where
  zero : Bool
  sign : Bool
  overflow : Bool
deriving DecidableEq, Repr

namespace Flags

/-- The flags of a difference. -/
def ofSub (left right : Word) : Flags :=
  ⟨left - right == 0, (left - right).msb, left.ssubOverflow right⟩

/-- The flags of a sum. -/
def ofAdd (left right : Word) : Flags :=
  ⟨left + right == 0, (left + right).msb, left.saddOverflow right⟩

end Flags

/-- Whether the flags show the relation. -/
def Condition.holds (flags : Flags) : Condition → Bool
  | .e => flags.zero
  | .ne => !flags.zero
  | .l => flags.sign != flags.overflow
  | .le => flags.zero || flags.sign != flags.overflow

namespace Arith

/-- The result of an arithmetic instruction. -/
def apply (left right : Word) : Arith → Word
  | .add => left + right
  | .sub => left - right
  | .imul => left * right

/-- The flags that it leaves; a product leaves them undefined. -/
def flags (left right : Word) : Arith → Option Flags
  | .add => some (.ofAdd left right)
  | .sub => some (.ofSub left right)
  | .imul => none

end Arith

/-- A call that was made: the function and the values of the argument registers, or of as
many arguments as the source text has.
-/
structure Call where
  name : String
  arguments : List Word
deriving DecidableEq, Repr

/-- What a called function leaves behind: the value that it returns, the argument registers
and the flags, and the bytes of all memory that it may have written.
-/
structure Answer where
  value : Word
  registers : Register → Word
  flags : Option Flags
  memory : Memory

/-- The state of the machine, with the answers to the calls that are still to be made and
the calls made so far. `al` has no value of its own, and undefined flags are absent.
-/
structure Machine where
  registers : Register → Word
  flags : Option Flags
  memory : Memory
  answers : List Answer
  calls : List Call

namespace Machine

/-- Puts a value into a register. -/
def set (m : Machine) (register : Register) (value : Word) : Machine :=
  { m with registers := fun r => if r = register then value else m.registers r }

/-- The word on top of the stack. -/
def top (m : Machine) : Word :=
  m.memory.readWord (m.registers .rsp)

/-- Puts a value on top of the stack. -/
def push (m : Machine) (value : Word) : Machine :=
  { m.set .rsp (m.registers .rsp - 8) with
    memory := m.memory.writeWord (m.registers .rsp - 8) value }

/-- Takes the value on top of the stack into a register. -/
def pop (m : Machine) (register : Register) : Machine :=
  (m.set .rsp (m.registers .rsp + 8)).set register m.top

/-- The value of an operand. -/
def read? (m : Machine) : Operand → Option Word
  | .imm value => some (.ofInt 64 value)
  | .reg .al | .mem .al => none
  | .reg register => some (m.registers register)
  | .mem register => some (m.memory.readWord (m.registers register))
  | .stack offset => some (m.memory.readWord (m.registers .rbp - .ofInt 64 offset))

/-- Writes a value to an operand. -/
def write? (m : Machine) (value : Word) : Operand → Option Machine
  | .imm _ | .reg .al | .mem .al => none
  | .reg register => some (m.set register value)
  | .mem register =>
    some { m with memory := m.memory.writeWord (m.registers register) value }
  | .stack offset =>
    some { m with memory := m.memory.writeWord (m.registers .rbp - .ofInt 64 offset) value }

/-- Divides `rdx` and `rax`, read as one signed number, unless the divisor is zero or the
quotient is no signed word.
-/
def divide? (m : Machine) (divisor : Word) : Option Machine :=
  let dividend := (m.registers .rdx ++ m.registers .rax).toInt
  let quotient := dividend.tdiv divisor.toInt
  if divisor = 0 ∨ quotient < -2 ^ 63 ∨ 2 ^ 63 ≤ quotient then none
  else
    some { (m.set .rax (.ofInt 64 quotient)).set .rdx (.ofInt 64 (dividend.tmod divisor.toInt))
      with flags := none }

/-- The state after a call. The called function keeps `rsp` and `rbp`, and it writes only
below `rsp` and where the caller's variables are, which is what `exposed` tells.
-/
def answered (exposed : Word → Bool) (m : Machine) (name : String) (answer : Answer)
    (answers : List Answer)
    : Machine where
  registers r :=
    if r = .rsp ∨ r = .rbp then m.registers r
    else if r = .rax then answer.value
    else answer.registers r
  flags := answer.flags
  memory place :=
    if place < m.registers .rsp ∨ exposed place then answer.memory place else m.memory place
  answers := answers
  calls := m.calls ++ [⟨name, Register.forArguments.map m.registers⟩]

/-- What an instruction that does not move control does. -/
def perform (exposed : Word → Bool) (m : Machine) : Instr → Option Machine
  | .push operand => (m.read? operand).map m.push
  | .pop .al => none
  | .pop register => some (m.pop register)
  | .mov target source => do
    let value ← m.read? source
    m.write? value target
  | .movzb target .al => m.write? (((m.registers .rax).setWidth 8).setWidth 64) (.reg target)
  | .movzb _ _ => none
  | .arith op target source => do
    let left ← m.read? target
    let right ← m.read? source
    { m with flags := op.flags left right }.write? (op.apply left right) target
  | .cqo => some (m.set .rdx (if (m.registers .rax).msb then -1 else 0))
  | .idiv divisor => do
    let divisor ← m.read? divisor
    m.divide? divisor
  | .cmp left right => do
    let left ← m.read? left
    let right ← m.read? right
    some { m with flags := some (.ofSub left right) }
  | .set condition .al => do
    let flags ← m.flags
    some (m.set .rax ((m.registers .rax).extractLsb' 8 56
      ++ (BitVec.ofBool (condition.holds flags)).setWidth 8))
  | .set _ _ => none
  | .call name =>
    match m.answers with
    | [] => none
    | answer :: answers => some (m.answered exposed name answer answers)
  | .jmp _ | .jmpIf _ _ | .ret => none

/-- Runs lines without jumps, one after the other. -/
def run (exposed : Word → Bool) (m : Machine) : Listing → Option Machine
  | [] => some m
  | .directive _ :: ls | .label _ :: ls => m.run exposed ls
  | .instr i :: ls => do
    let m ← m.perform exposed i
    m.run exposed ls

end Machine

end SlotC
