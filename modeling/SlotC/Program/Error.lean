import SlotC.Token.Basic

/-! Errors of reading a program. An error has a cause and a place.
-/

namespace SlotC

/-- Why a list of tokens is no program. -/
inductive SyntaxError.Cause where
  | expected (kind : Kind) (found : Token)
  | expectedIdentifier (found : Token)
  | expectedNumber (found : Token)
  | expectedType (found : Token)
  | badFactor (found : Token)
  | unexpectedEnd
  | unknownIdentifier (name : String)
  | duplicateIdentifier (name : String)
  | invalidArrayLength (length : Int64)
  | invalidSizeofOperand
  | tooManyParameters (function : String)
deriving DecidableEq, Repr

/-- The wording of a cause. -/
def SyntaxError.Cause.message : SyntaxError.Cause → String
  | .expected kind found => "expected '" ++ kind.spelling ++ "', but got " ++ found.shown
  | .expectedIdentifier found => "expected identifier, but got " ++ found.shown
  | .expectedNumber found => "expected number, but got " ++ found.shown
  | .expectedType found => "expected type, but got " ++ found.shown
  | .badFactor found => "bad factor " ++ found.shown
  | .unexpectedEnd => "reached unexpected EOF"
  | .unknownIdentifier name => "unknown identifier: " ++ name
  | .duplicateIdentifier name => "duplicate identifier: " ++ name
  | .invalidArrayLength length => "invalid array length " ++ toString length.toInt
  | .invalidSizeofOperand => "sizeof expects a variable or a number"
  | .tooManyParameters function => "function " ++ function ++ " takes more than six parameters"

/-- An error of reading a program, at a byte of the source text. -/
structure SyntaxError where
  cause : SyntaxError.Cause
  pos : Nat
deriving DecidableEq, Repr

/-- The error as a message. -/
def SyntaxError.message (error : SyntaxError) : String :=
  error.cause.message ++ " (at byte " ++ toString error.pos ++ ")"

/-- Why a reader stopped. A reader sees only the tokens ahead of it, so where the input
ends is not known before `Failure.locate`.
-/
inductive Failure where
  | ranOut
  | rejected (error : SyntaxError)
deriving DecidableEq, Repr

namespace Failure

/-- Rejects a token for the given cause, at the place of the token. -/
def reject (cause : SyntaxError.Cause) (token : Token) : Failure :=
  .rejected ⟨cause, token.pos⟩

/-- The error of a reader whose input ends at byte `endPos`. -/
def locate (endPos : Nat) : Failure → SyntaxError
  | .ranOut => ⟨.unexpectedEnd, endPos⟩
  | .rejected error => error

end Failure

end SlotC
