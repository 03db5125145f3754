import SlotC.Grammar.Expr

/-! Reading statements. The variables of the function are known already, so a declaration
only has to have its shape and names one of them.
-/

namespace SlotC.Grammar

/-- Reads an expression in parentheses. -/
def condition (frame : Frame) (ts : List Token) : Reading Expr ts.length := do
  let ⟨_, rest, opened⟩ ← expect .openParen ts
  let ⟨e, rest, read⟩ ← expr frame 0 rest
  have fewer := fewer_trans opened read
  let ⟨_, rest, closed⟩ ← expect .closeParen rest
  return ⟨e, rest, fewer_trans fewer closed⟩

/-- Reads an expression that may be absent, and the token of kind `close` after it. -/
def optionalExpr (frame : Frame) (close : Kind)
    : (ts : List Token) → Reading (Option Expr) ts.length
  | [] => .error .ranOut
  | t :: ts =>
    if t.kind = close then .ok ⟨none, ts, fewer_tail t ts⟩
    else do
      let ⟨e, rest, read⟩ ← expr frame 0 (t :: ts)
      let ⟨_, rest, closed⟩ ← expect close rest
      return ⟨some e, rest, fewer_trans_cons read closed⟩

/-- Reads an expression and the semicolon after it. -/
def closedExpr (frame : Frame) (ts : List Token) : Reading Expr ts.length := do
  let ⟨e, rest, read⟩ ← expr frame 0 ts
  let ⟨_, rest, closed⟩ ← expect .semicolon rest
  return ⟨e, rest, fewer_trans read closed⟩

/-- Reads the length of an array in brackets, if there is one. -/
def optionalLength : (ts : List Token) → Reading (Option Token) (ts.length + 1)
  | [] => .ok ⟨none, [], nil_fewer⟩
  | t :: ts =>
    if t.kind = .openBracket then do
      let ⟨length, rest, read⟩ ← number ts
      let ⟨_, rest, closed⟩ ← expect .closeBracket rest
      have fewer := fewer_trans read closed
      return ⟨some length, rest, fewer_cons t fewer⟩
    else .ok ⟨none, t :: ts, cons_fewer t ts⟩

/-- Reads a declaration; the answer is the index of the variable. -/
def declaration (frame : Frame) (ts : List Token) : Reading Nat ts.length := do
  let ⟨param, rest, _⟩ ← typedName ts
  let ⟨_, rest, _⟩ ← optionalLength rest
  let ⟨_, rest, _⟩ ← expect .semicolon rest
  let id ← (frame.resolve param.name).mapError .rejected
  return ⟨id, rest, by omega⟩

/-- The three parts of the head of a loop. -/
structure LoopHead where
  start : Option Expr
  condition : Option Expr
  step : Option Expr

/-- Reads the head of a loop with three parts. -/
def loopHead (frame : Frame) (ts : List Token) : Reading LoopHead ts.length := do
  let ⟨_, rest, _⟩ ← expect .openParen ts
  let ⟨start, rest, _⟩ ← optionalExpr frame .semicolon rest
  let ⟨condition, rest, _⟩ ← optionalExpr frame .semicolon rest
  let ⟨step, rest, _⟩ ← optionalExpr frame .closeParen rest
  return ⟨⟨start, condition, step⟩, rest, by omega⟩

mutual

/-- Reads a statement. -/
def stmt (frame : Frame) : (ts : List Token) → Reading Stmt ts.length
  | [] => .error .ranOut
  | t :: ts =>
    match t.kind with
    | .returnWord => do
      let ⟨e, rest, _⟩ ← closedExpr frame ts
      return ⟨.ret e, rest, by simp only [List.length_cons]; omega⟩
    | .forWord => do
      let ⟨head, rest, _⟩ ← loopHead frame ts
      let ⟨body, rest, _⟩ ← stmt frame rest
      return ⟨.forLoop head.start head.condition head.step body, rest,
        by simp only [List.length_cons]; omega⟩
    | .whileWord => do
      let ⟨e, rest, _⟩ ← condition frame ts
      let ⟨body, rest, _⟩ ← stmt frame rest
      return ⟨.whileLoop e body, rest, by simp only [List.length_cons]; omega⟩
    | .ifWord => do
      let ⟨e, rest, _⟩ ← condition frame ts
      let ⟨whenTrue, rest, _⟩ ← stmt frame rest
      let ⟨whenFalse, rest, _⟩ ← alternative frame rest
      return ⟨.branch e whenTrue whenFalse, rest, by simp only [List.length_cons]; omega⟩
    | .openBrace => do
      let ⟨body, rest, _⟩ ← items frame ts
      return ⟨.block body, rest, by simp only [List.length_cons]; omega⟩
    | .type _ => do
      let ⟨id, rest, _⟩ ← declaration frame (t :: ts)
      return ⟨.declare id, rest, by assumption⟩
    | _ => do
      let ⟨e, rest, _⟩ ← closedExpr frame (t :: ts)
      return ⟨.expr e, rest, by assumption⟩
termination_by ts => 2 * ts.length
decreasing_by all_goals simp only [List.length_cons] at *; omega

/-- Reads the other branch of a conditional statement, if there is one. -/
def alternative (frame : Frame) : (ts : List Token) → Reading (Option Stmt) (ts.length + 1)
  | [] => .ok ⟨none, [], nil_fewer⟩
  | t :: ts =>
    if t.kind = .elseWord then do
      let ⟨s, rest, read⟩ ← stmt frame ts
      return ⟨some s, rest, fewer_cons t read⟩
    else .ok ⟨none, t :: ts, cons_fewer t ts⟩
termination_by ts => 2 * ts.length + 1
decreasing_by all_goals simp only [List.length_cons] at *; omega

/-- Reads the statements of a block and the brace after them. -/
def items (frame : Frame) : (ts : List Token) → Reading (List Stmt) ts.length
  | [] => .error .ranOut
  | t :: ts =>
    if t.kind = .closeBrace then .ok ⟨[], ts, fewer_tail t ts⟩
    else do
      let ⟨first, rest, _⟩ ← stmt frame (t :: ts)
      let ⟨more, rest, _⟩ ← items frame rest
      return ⟨first :: more, rest, by omega⟩
termination_by ts => 2 * ts.length + 1
decreasing_by all_goals simp only [List.length_cons] at *; omega

end

/-- Reads a block in braces. -/
def block (frame : Frame) (ts : List Token) : Reading (List Stmt) ts.length := do
  let ⟨_, rest, opened⟩ ← expect .openBrace ts
  let ⟨body, rest, read⟩ ← items frame rest
  return ⟨body, rest, fewer_trans opened read⟩

end SlotC.Grammar
