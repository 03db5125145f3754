import SlotC.Grammar.Program

/-! Reading with a cursor. The readers of the grammar are given the tokens that are left and return
fewer of them, so they end by their types. A cursor is only a number: it is moved without a look at
the end of the tokens, and nothing in the readers here says that they end. What they call, and the
next pass of each loop, is a parameter of them. Tied to themselves some number of times they are
readers whose calls nest up to that depth, and a call that nests deeper has no outcome.
-/

namespace SlotC

/-- A reader with a cursor, whose position is the state. -/
abbrev Walk (α : Type) := StateT Nat (ExceptT SyntaxError Option) α

namespace Walk

variable {α : Type}

/-- What a reader comes to from a position: a value and the position after it, or an error. A reader
that has not ended comes to nothing.
-/
def outcome (walk : Walk α) (pos : Nat) : Option (Except SyntaxError (α × Nat)) :=
  walk pos

/-- The reader that does not end. -/
def unending : Walk α :=
  fun _ => none

end Walk

/-- What readers call: each other, and the next pass of their loops. -/
structure Calls where
  bumpWhile : Kind → Nat → Walk Nat
  expr : Frame → Nat → Walk Expr
  climb : Frame → Nat → Expr → Walk Expr
  unary : Frame → Walk Expr
  primary : Frame → Walk Expr
  argumentList : Frame → Walk (List Expr)
  stmt : Frame → Walk Stmt
  items : Frame → Walk (List Stmt)
  paramList : Walk (List Param)
  functions : Walk (List Function)

namespace Cursor

variable (tokens : List Token) (calls : Calls) (frame : Frame)

-----------------------------------------------------------------------------------------
-- Single tokens
-----------------------------------------------------------------------------------------

/-- The token at the cursor, none if the cursor is at the end. -/
def peek? : Walk (Option Token) := do
  return tokens[← get]?

/-- Whether the token at the cursor is of the given kind. -/
def peekIs (kind : Kind) : Walk Bool := do
  return (← peek? tokens).any fun t => t.kind = kind

/-- Moves the cursor by one, also if it is at the end. -/
def bump : Walk Unit :=
  modify (· + 1)

/-- Moves the cursor past a token of the given kind, if it is at one. -/
def bumpIf (kind : Kind) : Walk Bool := do
  if ← peekIs tokens kind then
    bump
    return true
  else return false

/-- Moves the cursor past tokens of the given kind and adds their number to `count`. -/
def bumpWhile (kind : Kind) (count : Nat) : Walk Nat := do
  if ← bumpIf tokens kind then calls.bumpWhile kind (count + 1) else return count

/-- Whether no token is left. -/
def atEnd : Walk Bool := do
  return tokens.length ≤ (← get)

/-- The place of the token at the cursor, or where the last token ends. -/
def place : Walk Nat := do
  match ← peek? tokens with
  | some t => return t.pos
  | none => return Token.endOf tokens

/-- The token at the cursor, which has to be at one. -/
def peek : Walk Token := do
  match ← peek? tokens with
  | some t => return t
  | none => throw ⟨.unexpectedEnd, Token.endOf tokens⟩

/-- The token at the cursor, which moves past it. -/
def next : Walk Token := do
  let t ← peek tokens
  bump
  return t

/-- Reads one token of the given kind; any other is an error with the given cause. -/
def one (kind : Kind) (cause : Token → SyntaxError.Cause) : Walk Token := do
  let pos ← place tokens
  let t ← next tokens
  if t.kind = kind then return t else throw ⟨cause t, pos⟩

def expect (kind : Kind) : Walk Token :=
  one tokens kind (.expected kind)

def identifier : Walk Token :=
  one tokens .identifier .expectedIdentifier

def number : Walk Token :=
  one tokens .constant .expectedNumber

/-- Reads the name of a type. -/
def typeName : Walk Scalar := do
  let pos ← place tokens
  let t ← next tokens
  match t.kind with
  | .type scalar => return scalar
  | _ => throw ⟨.expectedType t, pos⟩

/-- Reads something that may be followed by a comma and more of the same. -/
def separated {α : Type} (one : Walk α) (loop : Walk (List α)) : Walk (List α) := do
  let first ← one
  if ← bumpIf tokens .comma then
    let more ← loop
    return first :: more
  else return [first]

/-- Reads a list in parentheses, which may be empty, not the parenthesis after it. -/
def unlessClosed {α : Type} (list : Walk (List α)) : Walk (List α) := do
  if ← peekIs tokens .closeParen then return [] else list

/-- Reads the type, stars and name of a variable or function. -/
def typedName : Walk Param := do
  let scalar ← typeName tokens
  let pointers ← bumpWhile tokens calls .star 0
  let name ← identifier tokens
  return ⟨scalar, pointers, name⟩

/-- The index of the variable that a token names. -/
def resolve (name : Token) : Walk Nat :=
  MonadExcept.ofExcept (frame.resolve name)

-----------------------------------------------------------------------------------------
-- Expressions
-----------------------------------------------------------------------------------------

/-- Reads an expression whose operators outside parentheses bind at least as tightly as `least`. -/
def expr (least : Nat) : Walk Expr := do
  let left ← calls.unary frame
  calls.climb frame least left

/-- Extends an expression for as long as the token at the cursor is an operator that binds tightly
enough.
-/
def climb (least : Nat) (left : Expr) : Walk Expr := do
  match (← peek? tokens).bind fun t => t.kind.operator? with
  | none => return left
  | some operator =>
    if operator.precedence < least then return left
    else
      let _ ← next tokens
      let right ← calls.expr frame operator.rightPrecedence
      calls.climb frame least (operator.build left right)

/-- Reads an operand with the operators in front of it. -/
def unary : Walk Expr := do
  let t ← peek tokens
  match t.kind with
  | .plus =>
    bump
    calls.unary frame
  | .minus =>
    bump
    let operand ← calls.unary frame
    return .binary .subtract (.constant 0) operand
  | .ampersand =>
    bump
    let operand ← calls.unary frame
    return .addressOf operand
  | .star =>
    bump
    let operand ← calls.unary frame
    return .deref operand
  | .sizeofWord =>
    let _ ← expect tokens .sizeofWord
    let pos ← place tokens
    let operand ← calls.unary frame
    match Grammar.sizeOf? frame operand with
    | some size => return .constant size
    | none => throw ⟨.invalidSizeofOperand, pos⟩
  | _ => calls.primary frame

/-- Reads arguments, one at least, for as long as there is a comma after one. -/
def argumentList : Walk (List Expr) :=
  separated tokens (calls.expr frame 0) (calls.argumentList frame)

/-- Reads the arguments of a call. -/
def arguments : Walk (List Expr) :=
  unlessClosed tokens (calls.argumentList frame)

/-- Reads a variable, an element of an array, a call, a number or an expression in parentheses. -/
def primary : Walk Expr := do
  let t ← peek tokens
  match t.kind with
  | .identifier =>
    let name ← identifier tokens
    match (← peek? tokens).map Token.kind with
    | some .openParen =>
      let _ ← expect tokens .openParen
      let arguments ← arguments tokens calls frame
      let _ ← expect tokens .closeParen
      return .call name.text arguments
    | some .openBracket =>
      let id ← resolve frame name
      let _ ← expect tokens .openBracket
      let index ← calls.expr frame 0
      let _ ← expect tokens .closeBracket
      return .deref (.binary .add (.var id) index)
    | _ =>
      let id ← resolve frame name
      return .var id
  | .openParen =>
    let _ ← expect tokens .openParen
    let e ← calls.expr frame 0
    let _ ← expect tokens .closeParen
    return e
  | .constant =>
    bump
    return .constant t.value
  | _ => throw ⟨.badFactor t, t.pos⟩

-----------------------------------------------------------------------------------------
-- Statements
-----------------------------------------------------------------------------------------

/-- Reads an expression in parentheses. -/
def condition : Walk Expr := do
  let _ ← expect tokens .openParen
  let e ← calls.expr frame 0
  let _ ← expect tokens .closeParen
  return e

/-- Reads an expression that may be absent, and the token of kind `close` after it. -/
def optionalExpr (close : Kind) : Walk (Option Expr) := do
  if ← bumpIf tokens close then return none
  else
    let e ← calls.expr frame 0
    let _ ← expect tokens close
    return some e

/-- Reads an expression and the semicolon after it. -/
def closedExpr : Walk Expr := do
  let e ← calls.expr frame 0
  let _ ← expect tokens .semicolon
  return e

/-- Reads the length of an array in brackets, if there is one. -/
def optionalLength : Walk (Option Token) := do
  if ← bumpIf tokens .openBracket then
    let length ← number tokens
    let _ ← expect tokens .closeBracket
    return some length
  else return none

/-- Reads a declaration; the answer is the index of the variable. -/
def declaration : Walk Nat := do
  let param ← typedName tokens calls
  let _ ← optionalLength tokens
  let _ ← expect tokens .semicolon
  resolve frame param.name

/-- Reads the head of a loop with three parts. -/
def loopHead : Walk Grammar.LoopHead := do
  let _ ← expect tokens .openParen
  let start ← optionalExpr tokens calls frame .semicolon
  let condition ← optionalExpr tokens calls frame .semicolon
  let step ← optionalExpr tokens calls frame .closeParen
  return ⟨start, condition, step⟩

/-- Reads the other branch of a conditional statement, if there is one. -/
def alternative : Walk (Option Stmt) := do
  if ← bumpIf tokens .elseWord then
    let s ← calls.stmt frame
    return some s
  else return none

/-- Reads a block in braces. -/
def block : Walk (List Stmt) := do
  let _ ← expect tokens .openBrace
  calls.items frame

/-- Reads statements until the cursor is at the brace that closes their block, and that brace. -/
def items : Walk (List Stmt) := do
  if ← bumpIf tokens .closeBrace then return []
  else
    let first ← calls.stmt frame
    let more ← calls.items frame
    return first :: more

/-- Reads a statement. -/
def stmt : Walk Stmt := do
  let t ← peek tokens
  match t.kind with
  | .returnWord =>
    let _ ← expect tokens .returnWord
    let e ← closedExpr tokens calls frame
    return .ret e
  | .forWord =>
    let _ ← expect tokens .forWord
    let head ← loopHead tokens calls frame
    let body ← calls.stmt frame
    return .forLoop head.start head.condition head.step body
  | .whileWord =>
    let _ ← expect tokens .whileWord
    let e ← condition tokens calls frame
    let body ← calls.stmt frame
    return .whileLoop e body
  | .ifWord =>
    let _ ← expect tokens .ifWord
    let e ← condition tokens calls frame
    let whenTrue ← calls.stmt frame
    let whenFalse ← alternative tokens calls frame
    return .branch e whenTrue whenFalse
  | .openBrace =>
    let body ← block tokens calls frame
    return .block body
  | .type _ =>
    let id ← declaration tokens calls frame
    return .declare id
  | _ =>
    let e ← closedExpr tokens calls frame
    return .expr e

-----------------------------------------------------------------------------------------
-- Functions
-----------------------------------------------------------------------------------------

/-- Reads parameters, one at least, for as long as there is a comma after one. -/
def paramList : Walk (List Param) :=
  separated tokens (typedName tokens calls) calls.paramList

/-- Reads the parameters of a function. -/
def params : Walk (List Param) :=
  unlessClosed tokens calls.paramList

/-- The tokens from the brace at the cursor up to the one that closes it. The cursor stays. -/
def braceWindow : Walk (List Token) := do
  let ahead := tokens.drop (← get)
  MonadExcept.ofExcept ((Grammar.braceWindow ahead).mapError (Failure.locate (Token.endOf tokens)))

/-- Reads a function. -/
def function : Walk Function := do
  let head ← typedName tokens calls
  let _ ← expect tokens .openParen
  let params ← params tokens calls
  let _ ← expect tokens .closeParen
  let window ← braceWindow tokens
  let frame ← MonadExcept.ofExcept (Frame.ofBody head.name params window)
  let body ← block tokens calls frame
  return ⟨head.name.text, params.length, frame.locals, body⟩

/-- Reads functions until no token is left. -/
def functions : Walk (List Function) := do
  if ← atEnd tokens then return []
  else
    let first ← function tokens calls
    let more ← calls.functions
    return first :: more

-----------------------------------------------------------------------------------------
-- Calls
-----------------------------------------------------------------------------------------

/-- The readers, as what readers call. -/
def answered : Calls where
  bumpWhile := bumpWhile tokens calls
  expr := expr calls
  climb := climb tokens calls
  unary := unary tokens calls
  primary := primary tokens calls
  argumentList := argumentList tokens calls
  stmt := stmt tokens calls
  items := items tokens calls
  paramList := paramList tokens calls
  functions := functions tokens calls

/-- Calls of the readers that nest up to the given depth. -/
def nested : Nat → Calls
  | 0 =>
    ⟨fun _ _ => .unending, fun _ _ => .unending, fun _ _ _ => .unending, fun _ => .unending,
      fun _ => .unending, fun _ => .unending, fun _ => .unending, fun _ => .unending, .unending,
      .unending⟩
  | depth + 1 => answered tokens (nested depth)

end Cursor

end SlotC
