import SlotC.Grammar.Operator
import SlotC.Grammar.Reading

/-! Reading expressions. Operators are read by climbing: an operand is extended as long as
the next operator binds tightly enough.
-/

namespace SlotC.Grammar

/-- The size that `sizeof` gives for its operand. -/
def sizeOf? (frame : Frame) : Expr → Option Int64
  | .var id => (frame.get? id).map fun v => Int64.ofNat v.size
  | .constant _ => some (Int64.ofNat Scalar.int.size)
  | _ => none

/-- The variable that a token names, as an expression. -/
def named (frame : Frame) (name : Token) : Except Failure Expr :=
  match frame.resolve name with
  | .ok id => .ok (.var id)
  | .error error => .error (.rejected error)

mutual

/-- Reads an expression whose operators outside parentheses bind at least as tightly as
`least`.
-/
def expr (frame : Frame) (least : Nat) (ts : List Token) : Reading Expr ts.length := do
  let ⟨left, rest, _⟩ ← unary frame ts
  let e ← climb frame least left rest
  return e.within (by omega)
termination_by 4 * ts.length + 2
decreasing_by all_goals omega

/-- Extends the expression `left` by the operators and operands that follow it. -/
def climb (frame : Frame) (least : Nat) (left : Expr)
    : (ts : List Token) → Reading Expr (ts.length + 1)
  | [] => .ok ⟨left, [], nil_fewer⟩
  | t :: ts =>
    match t.kind.operator? with
    | none => .ok ⟨left, t :: ts, cons_fewer t ts⟩
    | some operator =>
      if operator.precedence < least then .ok ⟨left, t :: ts, cons_fewer t ts⟩
      else do
        let ⟨right, rest, _⟩ ← expr frame operator.rightPrecedence ts
        let e ← climb frame least (operator.build left right) rest
        return e.within (by simp only [List.length_cons]; omega)
termination_by ts => 4 * ts.length
decreasing_by all_goals simp only [List.length_cons] at *; omega

/-- Reads an operand with the operators in front of it. -/
def unary (frame : Frame) : (ts : List Token) → Reading Expr ts.length
  | [] => .error .ranOut
  | t :: ts =>
    match t.kind with
    | .plus => do
      let e ← unary frame ts
      return e.within (by simp)
    | .minus => do
      let ⟨operand, rest, _⟩ ← unary frame ts
      return ⟨.binary .subtract (.constant 0) operand, rest,
        by simp only [List.length_cons]; omega⟩
    | .ampersand => do
      let ⟨operand, rest, _⟩ ← unary frame ts
      return ⟨.addressOf operand, rest, by simp only [List.length_cons]; omega⟩
    | .star => do
      let ⟨operand, rest, _⟩ ← unary frame ts
      return ⟨.deref operand, rest, by simp only [List.length_cons]; omega⟩
    | .sizeofWord =>
      match ts with
      | [] => .error .ranOut
      | first :: ts => do
        let ⟨operand, rest, _⟩ ← unary frame (first :: ts)
        match sizeOf? frame operand with
        | some size =>
          return ⟨.constant size, rest, by simp only [List.length_cons] at *; omega⟩
        | none => .error (.reject .invalidSizeofOperand first)
    | _ => primary frame (t :: ts)
termination_by ts => 4 * ts.length + 1
decreasing_by all_goals simp only [List.length_cons] at *; omega

/-- Reads a variable, an element of an array, a call, a number or an expression in
parentheses.
-/
def primary (frame : Frame) : (ts : List Token) → Reading Expr ts.length
  | [] => .error .ranOut
  | t :: ts =>
    match t.kind with
    | .identifier =>
      match ts with
      | [] => do
        let e ← named frame t
        return ⟨e, [], by simp⟩
      | next :: ts =>
        match next.kind with
        | .openParen => do
          let ⟨arguments, rest, _⟩ ← arguments frame ts
          return ⟨.call t.text arguments, rest, by simp only [List.length_cons]; omega⟩
        | .openBracket => do
          let base ← named frame t
          let ⟨index, rest, _⟩ ← expr frame 0 ts
          let ⟨_, rest, _⟩ ← expect .closeBracket rest
          return ⟨.deref (.binary .add base index), rest,
            by simp only [List.length_cons]; omega⟩
        | _ => do
          let e ← named frame t
          return ⟨e, next :: ts, by simp⟩
    | .openParen => do
      let ⟨e, rest, _⟩ ← expr frame 0 ts
      let ⟨_, rest, _⟩ ← expect .closeParen rest
      return ⟨e, rest, by simp only [List.length_cons]; omega⟩
    | .constant => .ok ⟨.constant t.value, ts, fewer_tail t ts⟩
    | _ => .error (.reject (.badFactor t) t)
termination_by ts => 4 * ts.length
decreasing_by all_goals simp only [List.length_cons] at *; omega

/-- Reads the arguments of a call and the parenthesis after them. -/
def arguments (frame : Frame) : (ts : List Token) → Reading (List Expr) ts.length
  | [] => .error .ranOut
  | t :: ts =>
    if t.kind = .closeParen then .ok ⟨[], ts, fewer_tail t ts⟩
    else argumentList frame (t :: ts)
termination_by ts => 4 * ts.length + 4
decreasing_by all_goals simp only [List.length_cons] at *; omega

/-- Reads arguments, one at least, and the parenthesis after them. -/
def argumentList (frame : Frame) (ts : List Token) : Reading (List Expr) ts.length := do
  let ⟨argument, rest, first⟩ ← expr frame 0 ts
  let ⟨more, rest, second⟩ ← argumentTail frame rest
  return ⟨argument :: more, rest, fewer_trans first second⟩
termination_by 4 * ts.length + 3
decreasing_by all_goals omega

/-- Reads the arguments that follow an argument, and the parenthesis after them. -/
def argumentTail (frame : Frame) : (ts : List Token) → Reading (List Expr) ts.length
  | [] => .error .ranOut
  | t :: ts =>
    if t.kind = .comma then do
      let more ← argumentList frame ts
      return more.within (by simp)
    else do
      let ⟨_, rest, _⟩ ← expect .closeParen (t :: ts)
      return ⟨[], rest, by assumption⟩
termination_by ts => 4 * ts.length
decreasing_by all_goals simp only [List.length_cons] at *; omega

end

end SlotC.Grammar
