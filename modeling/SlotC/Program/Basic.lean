import SlotC.Frame.Variable
import SlotC.Program.Expr

/-! Functions and programs. -/

namespace SlotC

/-- A function. Its variables stand in the order of their indices; `paramCount` is the
number of parameters in its head.
-/
structure Function where
  name : String
  paramCount : Nat
  locals : List Variable
  body : List Stmt
deriving Repr

namespace Function

/-- The variable with the given index. -/
def get? (f : Function) (id : Nat) : Option Variable :=
  f.locals[id]?

/-- Bytes that the variables take: the largest of their offsets, zero if there are none. -/
def frameSize (f : Function) : Int :=
  ((f.locals.map Variable.offset).max?).getD 0

/-- The variables that hold an argument. -/
def params (f : Function) : List Variable :=
  f.locals.filter fun v => v.argIndex.isSome

end Function

/-- A program: its functions in source order. -/
structure Program where
  functions : List Function
deriving Repr

end SlotC
