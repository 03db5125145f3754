import SlotC.Grammar.Stmt
import SlotC.Program.Basic

/-! Reading functions and programs. The body of a function is found by matching braces, so
that its frame is laid out before its statements are read.
-/

namespace SlotC.Grammar

mutual

/-- Reads parameters, one at least, and the parenthesis after them. -/
def paramList (ts : List Token) : Reading (List Param) ts.length := do
  let ⟨param, rest, first⟩ ← typedName ts
  let ⟨more, rest, second⟩ ← paramTail rest
  return ⟨param :: more, rest, fewer_trans first second⟩
termination_by ts.length
decreasing_by all_goals omega

/-- Reads the parameters that follow a parameter, and the parenthesis after them. -/
def paramTail : (ts : List Token) → Reading (List Param) ts.length
  | [] => .error .ranOut
  | t :: ts =>
    if t.kind = .comma then do
      let more ← paramList ts
      return more.within (by simp)
    else do
      let ⟨_, rest, _⟩ ← expect .closeParen (t :: ts)
      return ⟨[], rest, by assumption⟩
termination_by ts => ts.length
decreasing_by all_goals simp only [List.length_cons] at *; omega

end

/-- Reads the parameters of a function, if there are any, and the parenthesis after them. -/
def params : (ts : List Token) → Reading (List Param) ts.length
  | [] => .error .ranOut
  | t :: ts =>
    if t.kind = .closeParen then .ok ⟨[], ts, fewer_tail t ts⟩ else paramList (t :: ts)

/-- The tokens up to the brace that closes the one already open, with `inner` braces open
inside it.
-/
def untilClosed (inner : Nat) : List Token → Option (List Token)
  | [] => none
  | t :: ts =>
    match t.kind, inner with
    | .openBrace, _ => (untilClosed (inner + 1) ts).map (t :: ·)
    | .closeBrace, 0 => some [t]
    | .closeBrace, inner + 1 => (untilClosed inner ts).map (t :: ·)
    | _, _ => (untilClosed inner ts).map (t :: ·)

/-- The tokens from the brace at their head up to the one that closes it. -/
def braceWindow : List Token → Except Failure (List Token)
  | [] => .error .ranOut
  | t :: ts =>
    if t.kind = .openBrace then
      match untilClosed 0 ts with
      | some window => .ok (t :: window)
      | none => .error .ranOut
    else .error (.reject (.expected .openBrace t) t)

/-- Reads a function. -/
def function (ts : List Token) : Reading Function ts.length := do
  let ⟨head, rest, named⟩ ← typedName ts
  let ⟨_, rest, opened⟩ ← expect .openParen rest
  have fewer := fewer_trans named opened
  let ⟨params, rest, given⟩ ← params rest
  have fewer := fewer_trans fewer given
  let window ← braceWindow rest
  let frame ← (Frame.ofBody head.name params window).mapError .rejected
  let ⟨body, rest, read⟩ ← block frame rest
  return ⟨⟨head.name.text, params.length, frame.locals, body⟩, rest, fewer_trans fewer read⟩

/-- Reads functions until no token is left. -/
def functions (ts : List Token) : Except Failure (List Function) :=
  match ts with
  | [] => .ok []
  | t :: ts => do
    let ⟨first, rest, _⟩ ← function (t :: ts)
    let more ← functions rest
    return first :: more
termination_by ts.length
decreasing_by simp only [List.length_cons] at *; omega

end SlotC.Grammar

namespace SlotC.Program

/-- The program that the tokens spell. An input that ends too early is an error at the end
of its last token.
-/
def ofTokens (ts : List Token) : Except SyntaxError Program :=
  match Grammar.functions ts with
  | .ok functions => .ok ⟨functions⟩
  | .error failure => .error (failure.locate (Token.endOf ts))

end SlotC.Program
