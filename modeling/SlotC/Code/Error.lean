import SlotC.Program.Outline

/-! Errors of code generation. -/

namespace SlotC

/-- Why there is no code for a function. -/
inductive CodeError where
  | undeclared (id : Nat) (function : String)
  | notAnLvalue (e : Expr)
  | assignToArray (name : String)
  | frameTooLarge (function : String)
  | noRegister (param : String)
  | unbalanced (depth : Int) (function : String)
  | tooManyArguments (name : String) (count : Nat)
deriving Repr

/-- The error as a message. -/
def CodeError.message : CodeError → String
  | .undeclared id function =>
    "invalid node: variable #" ++ toString id ++ " is not declared in " ++ function
  | .notAnLvalue e => "invalid node: " ++ e.outline.inline ++ " is not an lvalue"
  | .assignToArray name => "invalid node: cannot assign to array " ++ name
  | .frameTooLarge function =>
    "invalid node: frame of " ++ function ++ " does not fit a 32-bit displacement"
  | .noRegister param => "invalid node: parameter " ++ param ++ " has no register"
  | .unbalanced depth function =>
    "invalid node: stack depth " ++ toString depth ++ " at the end of " ++ function
  | .tooManyArguments name count =>
    "call to " ++ name ++ " passes " ++ toString count
      ++ " arguments, at most six are supported"

end SlotC
