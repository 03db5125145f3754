/-! The scalar types of the language. Each of them fills one slot of a frame, as a pointer
does, so every step of pointer arithmetic has the same width.
-/

namespace SlotC

/-- Bytes in one slot of a frame; also the size of every pointer. -/
def slotSize : Nat := 8

/-- A scalar type. -/
inductive Scalar where
  | int
deriving DecidableEq, Repr

namespace Scalar

/-- The keyword that names the type in a source text. -/
def name : Scalar → String
  | .int => "int"

/-- Bytes that a value of the type takes. -/
def size : Scalar → Nat
  | .int => slotSize

/-- The type that a word names, if it names one. -/
def ofKeyword? (word : String) : Option Scalar :=
  [Scalar.int].find? fun scalar => scalar.name == word

end Scalar

end SlotC
