import SlotC.Scalar

/-! Variables of a function: a name with its type and its place in the frame.
-/

namespace SlotC

/-- A parameter or local variable. It lies `offset` bytes below the base of the frame. An
array has one more level of indirection than its elements, its offset is that of its first
element, and the others lie above it. A parameter has the index of its argument.
-/
structure Variable where
  name : String
  scalar : Scalar
  offset : Int
  pointers : Nat
  arrayLength : Nat
  argIndex : Option Nat
deriving DecidableEq, Repr

namespace Variable

/-- Whether the value of the variable is an address. -/
def isPointer (v : Variable) : Bool :=
  0 < v.pointers

/-- Whether the variable is an array. -/
def isArray (v : Variable) : Bool :=
  0 < v.arrayLength

/-- Bytes that the value of the variable takes. -/
def size (v : Variable) : Nat :=
  if v.isPointer then slotSize else v.scalar.size

/-- Bytes that pointer arithmetic on the variable steps over. -/
def pointeeSize (v : Variable) : Nat :=
  if 1 < v.pointers then slotSize else v.scalar.size

end Variable

end SlotC
