import SlotC.Program.Basic
import SlotC.Proofs.Frame.Layout
import SlotC.Proofs.Machine.Basic

/-! The meaning of expressions. Variables lie in memory below the base of the frame, as
words of eight bytes, and an expression may read and write these words only. A call takes
its value, and what it does to the variables, from the answers given from outside.
-/

namespace SlotC

/-- The address of a variable in the frame with the given base. For an array it is that of
its first element.
-/
def Variable.address (v : Variable) (base : Word) : Word :=
  base - .ofInt 64 v.offset

namespace Function

/-- There is a word of a declared variable at the address. -/
def HasSlot (f : Function) (base place : Word) : Prop :=
  ∃ v ∈ f.locals, ∃ j < v.slots, place = v.address base + .ofNat 64 (8 * j)

instance (f : Function) (base place : Word) : Decidable (f.HasSlot base place) :=
  inferInstanceAs (Decidable (∃ v ∈ f.locals, ∃ j < v.slots, _))

/-- The byte at the address belongs to a word of a declared variable. -/
def Owns (f : Function) (base place : Word) : Prop :=
  ∃ v ∈ f.locals, ∃ j < v.slots, ∃ i < 8,
    place = v.address base + .ofNat 64 (8 * j) + .ofNat 64 i

instance (f : Function) (base place : Word) : Decidable (f.Owns base place) :=
  inferInstanceAs (Decidable (∃ v ∈ f.locals, ∃ j < v.slots, ∃ i < 8, _))

end Function

/-- What the run of a source text has besides its place in the text. -/
structure Store where
  memory : Memory
  answers : List Answer
  calls : List Call

namespace Store

/-- The word of a variable at an address. -/
def load? (f : Function) (base : Word) (s : Store) (place : Word) : Option Word :=
  if f.HasSlot base place then some (s.memory.readWord place) else none

/-- Writes the word of a variable at an address. -/
def store? (f : Function) (base : Word) (s : Store) (place value : Word) : Option Store :=
  if f.HasSlot base place then some { s with memory := s.memory.writeWord place value }
  else none

/-- Makes a call: the next answer gives its value and the variables after it. -/
def call? (s : Store) (name : String) (arguments : List Word) : Option (Word × Store) :=
  match s.answers with
  | [] => none
  | answer :: answers =>
    some (answer.value, ⟨answer.memory, answers, s.calls ++ [⟨name, arguments⟩]⟩)

end Store

/-- The number that stands for a truth value. -/
def Word.ofBool (b : Bool) : Word :=
  if b then 1 else 0

/-- The result of an operator on words, which comparisons and division read as signed. A
division by zero, and that of the least word by minus one, has none.
-/
def BinaryOp.result? (left right : Word) : BinaryOp → Option Word
  | .add => some (left + right)
  | .subtract => some (left - right)
  | .multiply => some (left * right)
  | .divide =>
    if right = 0 ∨ (left = .intMin 64 ∧ right = -1) then none else some (left.sdiv right)
  | .equal => some (.ofBool (left == right))
  | .notEqual => some (.ofBool (left != right))
  | .less => some (.ofBool (left.slt right))
  | .lessEqual => some (.ofBool (left.sle right))

/-- The right operand of an operator in bytes: a sum or difference whose left operand is a
variable that holds an address counts in what the variable points to.
-/
def Function.inBytes (f : Function) (op : BinaryOp) (left : Expr) (right : Word) : Word :=
  match op, left with
  | .add, .var id | .subtract, .var id =>
    match f.get? id with
    | some v => if 0 < v.pointers then right * .ofNat 64 v.pointeeSize else right
    | none => right
  | _, _ => right

mutual

/-- The value of an expression. -/
def Expr.eval (f : Function) (base : Word) : Expr → Store → Option (Word × Store)
  | .constant value, s => some (value.toBitVec, s)
  | .var id, s => do
    let v ← f.get? id
    if v.isArray then some (v.address base, s)
    else do
      let value ← s.load? f base (v.address base)
      some (value, s)
  | .binary op left right, s => do
    let (a, s) ← left.eval f base s
    let (b, s) ← right.eval f base s
    let value ← op.result? a (f.inBytes op left b)
    some (value, s)
  | .assign target source, s => do
    let (place, s) ← target.place f base s
    let (value, s) ← source.eval f base s
    let s ← s.store? f base place value
    some (value, s)
  | .addressOf operand, s => operand.place f base s
  | .deref operand, s => do
    let (place, s) ← operand.eval f base s
    let value ← s.load? f base place
    some (value, s)
  | .call name arguments, s => do
    let (values, s) ← evalAll f base arguments s
    s.call? name values

/-- The address of what an expression denotes. -/
def Expr.place (f : Function) (base : Word) : Expr → Store → Option (Word × Store)
  | .var id, s => do
    let v ← f.get? id
    some (v.address base, s)
  | .deref operand, s => operand.eval f base s
  | _, _ => none

/-- The values of expressions, from left to right. -/
def evalAll (f : Function) (base : Word) : List Expr → Store → Option (List Word × Store)
  | [], s => some ([], s)
  | e :: es, s => do
    let (value, s) ← e.eval f base s
    let (values, s) ← evalAll f base es s
    some (value :: values, s)

end

end SlotC
