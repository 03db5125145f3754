import SlotC.Frame.Variable
import SlotC.Program.Error

/-! The frame of a function: its variables, each with a place of its own. The whole body is
searched for declarations before any statement is read, and all of them share one scope.
-/

namespace SlotC

/-- The variables of a function and the bytes that they take together. -/
structure Frame where
  locals : List Variable
  size : Nat
deriving DecidableEq, Repr

/-- A parameter in the head of a function. -/
structure Param where
  scalar : Scalar
  pointers : Nat
  name : Token
deriving DecidableEq, Repr

/-- A variable as it is declared in a body, with the token of its length if it is an array.
-/
structure Declarator where
  name : Token
  pointers : Nat
  length : Option Token
deriving DecidableEq, Repr

namespace Declarator

/-- The number of stars at the head of the tokens. -/
def countStars (ts : List Token) : Nat :=
  (ts.takeWhile fun t => t.kind = .star).length

/-- The tokens after the stars at their head. -/
def skipStars (ts : List Token) : List Token :=
  ts.dropWhile fun t => t.kind = .star

/-- The length of an array, which is a positive number. -/
def checkLength (token : Token) : Except Failure Unit :=
  if token.kind ≠ .constant then .error (.reject (.expectedNumber token) token)
  else if token.value.toInt ≤ 0 then
    .error (.reject (.invalidArrayLength token.value) token)
  else .ok ()

/-- The variable that the tokens after the name of a type declare; none if they declare a
function.
-/
def ofTokens (ts : List Token) : Except Failure (Option Declarator) :=
  match skipStars ts with
  | [] => .error .ranOut
  | name :: rest =>
    if name.kind ≠ .identifier then .error (.reject (.expectedIdentifier name) name)
    else
      match rest with
      | [] => .ok (some ⟨name, countStars ts, none⟩)
      | next :: rest =>
        match next.kind, rest with
        | .openParen, _ => .ok none
        | .openBracket, [] => .error .ranOut
        | .openBracket, length :: rest => do
          checkLength length
          match rest with
          | [] => .error .ranOut
          | close :: _ =>
            if close.kind ≠ .closeBracket then
              .error (.reject (.expected .closeBracket close) close)
            else .ok (some ⟨name, countStars ts + 1, some length⟩)
        | _, _ => .ok (some ⟨name, countStars ts, none⟩)

/-- Elements of the declared array, zero if the variable is none. -/
def arrayLength (d : Declarator) : Nat :=
  (d.length.map fun token => token.value.toInt.toNat).getD 0

/-- Bytes that the variable takes in a frame. -/
def bytes (d : Declarator) : Nat :=
  slotSize * max 1 d.arrayLength

/-- The error of a variable for which the frame has no room: at the length of an array, and
at the name of any other variable, as if its length were one.
-/
def tooLarge (d : Declarator) : SyntaxError :=
  match d.length with
  | some length => ⟨.invalidArrayLength length.value, length.pos⟩
  | none => ⟨.invalidArrayLength 1, d.name.pos⟩

end Declarator

namespace Frame

/-- The largest frame whose size, rounded up to sixteen, is a signed 32-bit number. -/
def maxSize : Nat := 0x7ffffff0

/-- The number of parameters that a function may have. -/
def maxParams : Nat := 6

/-- The frame without variables. -/
def empty : Frame :=
  ⟨[], 0⟩

/-- The index of the variable with the given name. -/
def lookup? (frame : Frame) (name : String) : Option Nat :=
  frame.locals.findIdx? fun v => v.name == name

/-- The variable with the given index. -/
def get? (frame : Frame) (id : Nat) : Option Variable :=
  frame.locals[id]?

/-- The index of the variable that a token names. -/
def resolve (frame : Frame) (name : Token) : Except SyntaxError Nat :=
  match frame.lookup? name.text with
  | some id => .ok id
  | none => .error ⟨.unknownIdentifier name.text, name.pos⟩

/-- Adds a variable below those that the frame has. -/
def declare (frame : Frame) (scalar : Scalar) (d : Declarator) (argIndex : Option Nat)
    : Except SyntaxError Frame :=
  if (frame.lookup? d.name.text).isSome then
    .error ⟨.duplicateIdentifier d.name.text, d.name.pos⟩
  else
    let size := frame.size + d.bytes
    if size ≤ maxSize then
      .ok ⟨frame.locals ++ [⟨d.name.text, scalar, size, d.pointers, d.arrayLength, argIndex⟩],
        size⟩
    else .error d.tooLarge

/-- Adds parameters, the first of which has the given index. -/
def declareParams (frame : Frame) (index : Nat) : List Param → Except SyntaxError Frame
  | [] => .ok frame
  | param :: params => do
    let frame ← frame.declare param.scalar ⟨param.name, param.pointers, none⟩ (some index)
    frame.declareParams (index + 1) params

/-- Adds the variables that the tokens declare. -/
def declareLocals (frame : Frame) : List Token → Except Failure Frame
  | [] => .ok frame
  | t :: ts =>
    match t.kind with
    | .type scalar => do
      match ← Declarator.ofTokens ts with
      | none => frame.declareLocals ts
      | some d =>
        let frame ← (frame.declare scalar d none).mapError .rejected
        frame.declareLocals ts
    | _ => frame.declareLocals ts

/-- The frame of a function with the given name, parameters and body. -/
def ofBody (function : Token) (params : List Param) (body : List Token)
    : Except SyntaxError Frame :=
  if maxParams < params.length then
    .error ⟨.tooManyParameters function.text, function.pos⟩
  else do
    let frame ← empty.declareParams 0 params
    (frame.declareLocals body).mapError (Failure.locate (Token.endOf body))

end Frame

end SlotC
