import SlotC.Assembly.Basic
import SlotC.Code.Error

/-! Emission of code. An emission writes lines behind those that are there and moves the state
on, and what it has written stays when it fails.
-/

namespace SlotC

/-- The state of code generation: the number of the next label, and how many values the
code so far leaves on the stack above the frame.
-/
structure GenState where
  nextLabel : Nat
  depth : Int
deriving DecidableEq, Repr

/-- The state before any code. -/
def GenState.initial : GenState :=
  ⟨1, 0⟩

/-- What an emission left: all lines that are written, the state, and how it ended. -/
structure Emission (α : Type) where
  lines : Listing
  state : GenState
  outcome : Except CodeError α

/-- The emission with its lines behind others. -/
def Emission.behind {α : Type} (out : Listing) (e : Emission α) : Emission α :=
  ⟨out ++ e.lines, e.state, e.outcome⟩

theorem Emission.behind_behind {α : Type} (out out' : Listing) (e : Emission α)
    : (e.behind out').behind out = e.behind (out ++ out') := by
  simp only [behind, List.append_assoc]

/-- A step of code generation. It takes the state and all lines that are written so far, and
whatever it does, those lines stay in front of its own.
-/
@[ext] structure Emit (α : Type) where
  run : GenState → Listing → Emission α
  appends : ∀ state out, run state out = (run state []).behind out

namespace Emit

/-- What a step does where nothing is written yet. -/
def emission {α : Type} (step : Emit α) (state : GenState) : Emission α :=
  step.run state []

instance {α : Type} : CoeFun (Emit α) fun _ => GenState → Emission α :=
  ⟨emission⟩

/-- Appends nothing. -/
protected def pure {α : Type} (a : α) : Emit α where
  run state out := ⟨out, state, .ok a⟩
  appends state out := by simp only [Emission.behind, List.append_nil]

/-- One step and, if it succeeds, another. -/
protected def bind {α β : Type} (step : Emit α) (next : α → Emit β) : Emit β where
  run state out :=
    let first := step.run state out
    match first.outcome with
    | .error error => ⟨first.lines, first.state, .error error⟩
    | .ok a => (next a).run first.state first.lines
  appends state out := by
    rw [step.appends state out]
    rcases step.run state [] with ⟨lines, state', error | a⟩
    · rfl
    · simp only [Emission.behind]
      rw [(next a).appends state' (out ++ lines), (next a).appends state' lines,
        ← Emission.behind_behind]
      rfl

instance : Monad Emit where
  pure := Emit.pure
  bind := Emit.bind

/-- Ends with an error. -/
def fail {α : Type} (error : CodeError) : Emit α where
  run state out := ⟨out, state, .error error⟩
  appends state out := by simp only [Emission.behind, List.append_nil]

/-- Appends lines that leave the stack as it is. -/
def lines (listing : Listing) : Emit Unit where
  run state out := ⟨out ++ listing, state, .ok ()⟩
  appends _ _ := rfl

/-- Goes on in another state, with an answer that the state gives. -/
def modifyGet {α : Type} (change : GenState → α × GenState) : Emit α where
  run state out := ⟨out, (change state).2, .ok (change state).1⟩
  appends state out := by simp only [Emission.behind, List.append_nil]

/-- Appends an instruction that leaves the stack as it is. -/
def instr (i : Instr) : Emit Unit :=
  lines [.instr i]

/-- Defines a label. -/
def label (l : Label) : Emit Unit :=
  lines [.label l]

/-- Counts `change` more values on the stack. -/
def shiftDepth (change : Int) : Emit Unit :=
  modifyGet fun state => ((), { state with depth := state.depth + change })

/-- The number of values on the stack. -/
def depth : Emit Int :=
  modifyGet fun state => (state.depth, state)

/-- Sets the number of values on the stack. -/
def setDepth (depth : Int) : Emit Unit :=
  modifyGet fun state => ((), { state with depth := depth })

/-- A number that no label has yet. -/
def freshLabel : Emit Nat :=
  modifyGet fun state => (state.nextLabel, { state with nextLabel := state.nextLabel + 1 })

/-- Pushes a value. -/
def push (operand : Operand) : Emit Unit := do
  instr (.push operand)
  shiftDepth 1

/-- Pops a value. -/
def pop (register : Register) : Emit Unit := do
  instr (.pop register)
  shiftDepth (-1)

/-- Pops a value and jumps to the label if it is zero. -/
def jumpIfZero (l : Label) : Emit Unit := do
  pop .rax
  instr (.cmp (.reg .rax) (.imm 0))
  instr (.jmpIf .e l)

/-- Replaces the address on top of the stack by the value that it points to. -/
def load : Emit Unit := do
  pop .rax
  instr (.mov (.reg .rax) (.mem .rax))
  push (.reg .rax)

/-- Leaves the function. -/
def epilogue : Emit Unit :=
  lines [.instr (.mov (.reg .rsp) (.reg .rbp)), .instr (.pop .rbp), .instr .ret]

end Emit

end SlotC
