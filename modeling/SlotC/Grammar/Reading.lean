import SlotC.Frame.Layout

/-! Reading from the head of a list of tokens. What a reader returns carries the fact that
fewer tokens are left, so readers that call each other end.
-/

namespace SlotC

/-- A value read from tokens and the tokens after it, fewer than `bound`. -/
structure Parsed (α : Type) (bound : Nat) where
  value : α
  rest : List Token
  fewer : rest.length < bound

/-- The same result under a weaker bound. -/
def Parsed.within {α : Type} {small large : Nat} (p : Parsed α small) (h : small ≤ large)
    : Parsed α large :=
  ⟨p.value, p.rest, Nat.lt_of_lt_of_le p.fewer h⟩

/-- What follows a token is shorter than what it starts. -/
theorem fewer_tail (t : Token) (ts : List Token) : ts.length < (t :: ts).length :=
  Nat.lt_succ_self _

/-- What the second of two readers leaves is shorter than what the first was given. -/
theorem fewer_trans {ts rest rest' : List Token} (first : rest.length < ts.length)
    (second : rest'.length < rest.length)
    : rest'.length < ts.length :=
  Nat.lt_trans second first

/-- The same where the first reader was given at least one token. -/
theorem fewer_trans_cons {t : Token} {ts rest rest' : List Token}
    (first : rest.length < (t :: ts).length) (second : rest'.length < rest.length)
    : rest'.length < (t :: ts).length :=
  Nat.lt_trans second first

/-- A reader that may read nothing has a bound with room for that. -/
theorem nil_fewer : ([] : List Token).length < ([] : List Token).length + 1 :=
  Nat.lt_succ_self _

theorem cons_fewer (t : Token) (ts : List Token) : (t :: ts).length < (t :: ts).length + 1 :=
  Nat.lt_succ_self _

/-- The same where something is read after a first token. -/
theorem fewer_cons (t : Token) {ts rest : List Token} (fewer : rest.length < ts.length)
    : rest.length < (t :: ts).length + 1 :=
  Nat.lt_trans fewer (Nat.lt_succ_of_lt (Nat.lt_succ_self _))

/-- What a reader makes of a list of tokens of the given length. -/
abbrev Reading (α : Type) (length : Nat) := Except Failure (Parsed α length)

namespace Grammar

/-- Reads one token of the given kind. -/
def expect (kind : Kind) : (ts : List Token) → Reading Token ts.length
  | [] => .error .ranOut
  | t :: ts =>
    if t.kind = kind then .ok ⟨t, ts, fewer_tail t ts⟩ else .error (.reject (.expected kind t) t)

/-- Reads the name of something. -/
def identifier : (ts : List Token) → Reading Token ts.length
  | [] => .error .ranOut
  | t :: ts =>
    if t.kind = .identifier then .ok ⟨t, ts, fewer_tail t ts⟩
    else .error (.reject (.expectedIdentifier t) t)

/-- Reads a number. -/
def number : (ts : List Token) → Reading Token ts.length
  | [] => .error .ranOut
  | t :: ts =>
    if t.kind = .constant then .ok ⟨t, ts, fewer_tail t ts⟩
    else .error (.reject (.expectedNumber t) t)

/-- Reads the name of a type. -/
def typeName : (ts : List Token) → Reading Scalar ts.length
  | [] => .error .ranOut
  | t :: ts =>
    match t.kind with
    | .type scalar => .ok ⟨scalar, ts, fewer_tail t ts⟩
    | _ => .error (.reject (.expectedType t) t)

/-- Skipping stars leaves no more tokens than there were. -/
theorem length_skipStars_le (ts : List Token)
    : (Declarator.skipStars ts).length ≤ ts.length :=
  (List.dropWhile_suffix _).length_le

/-- Reads the type, stars and name of a variable or function. -/
def typedName (ts : List Token) : Reading Param ts.length := do
  let ⟨scalar, rest, _⟩ ← typeName ts
  have := length_skipStars_le rest
  let ⟨name, rest', _⟩ ← identifier (Declarator.skipStars rest)
  return ⟨⟨scalar, Declarator.countStars rest, name⟩, rest', by omega⟩

end Grammar

end SlotC
