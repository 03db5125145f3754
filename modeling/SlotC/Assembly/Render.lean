import SlotC.Assembly.Basic

/-! Listings as text, in the notation that has the written operand first.
-/

namespace SlotC

/-- The name of a register. -/
def Register.render : Register → String
  | .rax => "rax"
  | .rdi => "rdi"
  | .rsi => "rsi"
  | .rdx => "rdx"
  | .rcx => "rcx"
  | .r8 => "r8"
  | .r9 => "r9"
  | .rbp => "rbp"
  | .rsp => "rsp"
  | .al => "al"

/-- The text of an operand. -/
def Operand.render : Operand → String
  | .imm value => toString value
  | .reg register => register.render
  | .mem register => "[" ++ register.render ++ "]"
  | .stack offset => "[rbp-" ++ toString offset ++ "]"

/-- The ending of an instruction that depends on the condition. -/
def Condition.render : Condition → String
  | .e => "e"
  | .ne => "ne"
  | .l => "l"
  | .le => "le"

/-- The name of an arithmetic instruction. -/
def Arith.render : Arith → String
  | .add => "add"
  | .sub => "sub"
  | .imul => "imul"

/-- The text of a label. -/
def Label.render : Label → String
  | .symbol name => name
  | .otherwise id => ".L.else." ++ toString id
  | .finish id => ".L.end." ++ toString id
  | .start id => ".L.begin." ++ toString id

/-- The text of an instruction. -/
def Instr.render : Instr → String
  | .push operand => "push " ++ operand.render
  | .pop register => "pop " ++ register.render
  | .mov target source => "mov " ++ target.render ++ ", " ++ source.render
  | .movzb target source => "movzb " ++ target.render ++ ", " ++ source.render
  | .arith op target source => op.render ++ " " ++ target.render ++ ", " ++ source.render
  | .cqo => "cqo"
  | .idiv divisor => "idiv " ++ divisor.render
  | .cmp left right => "cmp " ++ left.render ++ ", " ++ right.render
  | .set condition register => "set" ++ condition.render ++ " " ++ register.render
  | .jmp label => "jmp " ++ label.render
  | .jmpIf condition label => "j" ++ condition.render ++ " " ++ label.render
  | .call name => "call " ++ name
  | .ret => "ret"

/-- The text of a directive. -/
def Directive.render : Directive → String
  | .intel => ".intel_syntax noprefix"
  | .globl name => ".globl " ++ name

/-- The text of a line; instructions are indented. -/
def Line.render : Line → String
  | .directive d => d.render
  | .label l => l.render ++ ":"
  | .instr i => "  " ++ i.render

/-- The text of a listing, each line ended. -/
def Listing.render (listing : Listing) : String :=
  String.join (listing.map fun line => line.render ++ "\n")

end SlotC
