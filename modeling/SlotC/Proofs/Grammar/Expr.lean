import SlotC.Proofs.Grammar.Reading
import SlotC.Proofs.Grammar.Syntax

/-! What the readers of expressions read, one rule for each form of an expression, and the
expressions that terms stand for.
-/

namespace SlotC

/-- The expression that a sign makes of its operand. -/
def Sign.build : Sign → Expr → Expr
  | .plus, e => e
  | .minus, e => .binary .subtract (.constant 0) e
  | .address, e => .addressOf e
  | .content, e => .deref e

namespace Term

mutual

/-- The expression that a term stands for, if its names are those of variables and sizes are
taken of variables and numbers only.
-/
def expr? (frame : Frame) : Term → Option Expr
  | .number t => some (.constant t.value)
  | .name t => do
    let id ← frame.lookup? t.text
    return .var id
  | .element t index => do
    let id ← frame.lookup? t.text
    let index ← index.expr? frame
    return .deref (.binary .add (.var id) index)
  | .call t arguments => do
    let arguments ← exprs? frame arguments
    return .call t.text arguments
  | .signed sign operand => do
    let operand ← operand.expr? frame
    return sign.build operand
  | .size operand => do
    let operand ← operand.expr? frame
    let size ← Grammar.sizeOf? frame operand
    return .constant size
  | .joined operator left right => do
    let left ← left.expr? frame
    let right ← right.expr? frame
    return operator.build left right

/-- The expressions that terms stand for. -/
def exprs? (frame : Frame) : List Term → Option (List Expr)
  | [] => some []
  | e :: es => do
    let e ← e.expr? frame
    let es ← exprs? frame es
    return e :: es

end

variable {frame : Frame} {e : Expr}

attribute [local simp] expr? exprs? Option.bind_eq_some_iff

theorem expr?_name {t : Token}
    : (Term.name t).expr? frame = some e ↔ ∃ id, frame.lookup? t.text = some id ∧ .var id = e := by
  simp

theorem expr?_element {t : Token} {index : Term}
    : (Term.element t index).expr? frame = some e
      ↔ ∃ id i, frame.lookup? t.text = some id ∧ index.expr? frame = some i
          ∧ .deref (.binary .add (.var id) i) = e := by
  simp

theorem expr?_call {t : Token} {arguments : List Term}
    : (Term.call t arguments).expr? frame = some e
      ↔ ∃ es, exprs? frame arguments = some es ∧ .call t.text es = e := by
  simp

theorem expr?_signed {sign : Sign} {operand : Term}
    : (Term.signed sign operand).expr? frame = some e
      ↔ ∃ e', operand.expr? frame = some e' ∧ sign.build e' = e := by
  simp

theorem expr?_size {operand : Term}
    : (Term.size operand).expr? frame = some e
      ↔ ∃ e' size, operand.expr? frame = some e' ∧ Grammar.sizeOf? frame e' = some size
          ∧ .constant size = e := by
  simp

theorem expr?_joined {o : Operator} {a b : Term}
    : (Term.joined o a b).expr? frame = some e
      ↔ ∃ a' b', a.expr? frame = some a' ∧ b.expr? frame = some b' ∧ o.build a' b' = e := by
  simp

theorem exprs?_cons {a : Term} {as : List Term} {es : List Expr}
    : exprs? frame (a :: as) = some es
      ↔ ∃ e es', a.expr? frame = some e ∧ exprs? frame as = some es' ∧ e :: es' = es := by
  simp

end Term

namespace Grammar

variable {frame : Frame} {least : Nat} {ts rest : List Token} {t : Token} {e left : Expr}

/-- An expression is an operand and what extends it. -/
theorem reads_expr
    : Reads (expr frame least ts) e rest
      ↔ ∃ left r, Reads (unary frame ts) left r ∧ Reads (climb frame least left r) e rest := by
  rw [expr]
  simp only [reads_bind, reads_within, exists_prop]
  constructor
  · rintro ⟨left, r, first, _, _, second, rfl, rfl⟩
    exact ⟨left, r, first, second⟩
  · rintro ⟨left, r, first, second⟩
    exact ⟨left, r, first, e, rest, second, rfl, rfl⟩

/-- The next token does not extend an expression. -/
def Stops (least : Nat) (ts : List Token) : Prop :=
  ∀ t ∈ ts.head?, ∀ o ∈ t.kind.operator?, o.precedence < least

/-- Where no operator binds tightly enough, nothing is read. -/
theorem reads_climb_stop (stops : Stops least ts)
    : Reads (climb frame least left ts) e rest ↔ e = left ∧ rest = ts := by
  cases ts with
  | nil =>
      rw [climb]
      simp
  | cons t ts =>
      rw [climb]
      split
      · simp
      · next o own =>
          have low : o.precedence < least := stops t (by simp) o own
          simp [low]

/-- An operator that binds tightly enough is read with its right operand. -/
theorem reads_climb_operator {o : Operator} (own : t.kind.operator? = some o)
    (binds : least ≤ o.precedence)
    : Reads (climb frame least left (t :: ts)) e rest
      ↔ ∃ right r, Reads (expr frame o.rightPrecedence ts) right r
          ∧ Reads (climb frame least (o.build left right) r) e rest := by
  rw [climb]
  split
  · next none => simp [own] at none
  · next o' own' =>
      obtain rfl : o = o' := Option.some.inj (own.symm.trans own')
      simp only [Nat.not_lt.mpr binds, if_false, reads_bind, reads_within, exists_prop]
      constructor
      · rintro ⟨right, r, first, _, _, second, rfl, rfl⟩
        exact ⟨right, r, first, second⟩
      · rintro ⟨right, r, first, second⟩
        exact ⟨right, r, first, e, rest, second, rfl, rfl⟩

-----------------------------------------------------------------------------------------
-- Operands
-----------------------------------------------------------------------------------------

theorem reads_unary_signed {sign : Sign} (own : t.kind = sign.kind)
    : Reads (unary frame (t :: ts)) e rest
      ↔ ∃ operand, Reads (unary frame ts) operand rest ∧ e = sign.build operand := by
  rw [unary.eq_def]
  cases sign with
  | plus | minus | address | content =>
      simp only [own, Sign.kind, reads_bind, reads_pure, reads_within, exists_prop]
      constructor
      · rintro ⟨_, _, read, rfl, rfl⟩
        exact ⟨_, read, rfl⟩
      · rintro ⟨_, read, rfl⟩
        exact ⟨_, rest, read, rfl, rfl⟩

theorem reads_unary_size (own : t.kind = .sizeofWord)
    : Reads (unary frame (t :: ts)) e rest
      ↔ ∃ operand size, Reads (unary frame ts) operand rest
          ∧ sizeOf? frame operand = some size ∧ e = .constant size := by
  rw [unary.eq_def]
  simp only [own]
  cases ts with
  | nil => simp [unary]
  | cons first ts =>
      simp only [reads_bind]
      constructor
      · rintro ⟨operand, r, read, same⟩
        split at same
        · next size found =>
            obtain ⟨rfl, rfl⟩ := reads_pure.mp same
            exact ⟨operand, size, read, found, rfl⟩
        · simp at same
      · rintro ⟨operand, size, read, found, rfl⟩
        refine ⟨operand, rest, read, ?_⟩
        simp [found]

/-- An operand without a sign. -/
theorem reads_unary_primary (unsigned : ∀ sign : Sign, t.kind ≠ sign.kind)
    (own : t.kind ≠ .sizeofWord)
    : Reads (unary frame (t :: ts)) e rest ↔ Reads (primary frame (t :: ts)) e rest := by
  have plus := unsigned .plus
  have minus := unsigned .minus
  have address := unsigned .address
  have content := unsigned .content
  rw [unary.eq_def]
  simp only
  split <;> simp_all [Sign.kind]

/-- A name is the variable that the frame has for it. -/
theorem named_eq_ok
    : named frame t = .ok e ↔ ∃ id, frame.lookup? t.text = some id ∧ e = .var id := by
  unfold named Frame.resolve
  cases frame.lookup? t.text with
  | none => simp
  | some id => simp [eq_comm]

theorem reads_primary_constant (own : t.kind = .constant)
    : Reads (primary frame (t :: ts)) e rest ↔ e = .constant t.value ∧ rest = ts := by
  rw [primary.eq_def]
  simp [own]

theorem reads_primary_group (own : t.kind = .openParen)
    : Reads (primary frame (t :: ts)) e rest
      ↔ ∃ last, Reads (expr frame 0 ts) e (last :: rest) ∧ last.kind = .closeParen := by
  rw [primary.eq_def]
  simp only [own, reads_bind, reads_pure, reads_expect, exists_prop]
  constructor
  · rintro ⟨_, _, first, last, _, ⟨rfl, closing⟩, rfl, rfl⟩
    exact ⟨last, first, closing⟩
  · rintro ⟨last, first, closing⟩
    exact ⟨e, _, first, last, rest, ⟨rfl, closing⟩, rfl, rfl⟩

theorem reads_primary_call {next : Token} (own : t.kind = .identifier)
    (opening : next.kind = .openParen)
    : Reads (primary frame (t :: next :: ts)) e rest
      ↔ ∃ es, Reads (arguments frame ts) es rest ∧ e = .call t.text es := by
  rw [primary.eq_def]
  simp only [own, opening, reads_bind, reads_pure, exists_prop]
  constructor
  · rintro ⟨es, _, read, rfl, rfl⟩
    exact ⟨es, read, rfl⟩
  · rintro ⟨es, read, rfl⟩
    exact ⟨es, rest, read, rfl, rfl⟩

theorem reads_primary_element {next : Token} (own : t.kind = .identifier)
    (opening : next.kind = .openBracket)
    : Reads (primary frame (t :: next :: ts)) e rest
      ↔ ∃ id index last, frame.lookup? t.text = some id
          ∧ Reads (expr frame 0 ts) index (last :: rest) ∧ last.kind = .closeBracket
          ∧ e = .deref (.binary .add (.var id) index) := by
  rw [primary.eq_def]
  simp only [own, opening]
  rw [reads_bind_check]
  simp only [named_eq_ok, reads_bind, reads_pure, reads_expect, exists_prop]
  constructor
  · rintro ⟨_, ⟨id, found, rfl⟩, index, _, first, last, _, ⟨rfl, closing⟩, rfl, rfl⟩
    exact ⟨id, index, last, found, first, closing, rfl⟩
  · rintro ⟨id, index, last, found, first, closing, rfl⟩
    exact ⟨_, ⟨id, found, rfl⟩, index, _, first, last, rest, ⟨rfl, closing⟩, rfl, rfl⟩

theorem reads_named {bound : Nat} {fewer : ts.length < bound}
    : Reads (do let e ← named frame t; return ⟨e, ts, fewer⟩) e rest
      ↔ ∃ id, frame.lookup? t.text = some id ∧ e = .var id ∧ rest = ts := by
  rw [reads_bind_check]
  simp only [named_eq_ok, reads_pure]
  constructor
  · rintro ⟨_, ⟨id, found, rfl⟩, rfl, rfl⟩
    exact ⟨id, found, rfl, rfl⟩
  · rintro ⟨id, found, rfl, rfl⟩
    exact ⟨_, ⟨id, found, rfl⟩, rfl, rfl⟩

/-- A name is a variable if it is not followed by a parenthesis or a bracket. -/
theorem reads_primary_name (own : t.kind = .identifier)
    (alone : ∀ next ∈ ts.head?, next.kind ≠ .openParen ∧ next.kind ≠ .openBracket)
    : Reads (primary frame (t :: ts)) e rest
      ↔ ∃ id, frame.lookup? t.text = some id ∧ e = .var id ∧ rest = ts := by
  rw [primary.eq_def]
  simp only [own]
  cases ts with
  | nil => exact reads_named
  | cons next ts =>
      obtain ⟨noCall, noElement⟩ := alone next rfl
      simp only
      exact reads_named

/-- The tokens that an operand without a sign starts with. -/
theorem primary_starts (read : Reads (primary frame (t :: ts)) e rest)
    : t.kind = .identifier ∨ t.kind = .openParen ∨ t.kind = .constant := by
  rw [primary.eq_def] at read
  simp only at read
  split at read <;> simp_all

/-- Where an operand without a sign may start, one is read. -/
theorem reads_unary_operand
    (starts : t.kind = .identifier ∨ t.kind = .openParen ∨ t.kind = .constant)
    : Reads (unary frame (t :: ts)) e rest ↔ Reads (primary frame (t :: ts)) e rest := by
  apply reads_unary_primary
  · intro sign same
    rcases starts with own | own | own <;> rw [own] at same <;> cases sign <;> cases same
  · intro same
    rcases starts with own | own | own <;> rw [own] at same <;> cases same

-----------------------------------------------------------------------------------------
-- Arguments
-----------------------------------------------------------------------------------------

theorem reads_argumentList {es : List Expr}
    : Reads (argumentList frame ts) es rest
      ↔ ∃ e more r, Reads (expr frame 0 ts) e r ∧ Reads (argumentTail frame r) more rest
          ∧ es = e :: more := by
  rw [argumentList]
  simp only [reads_bind, reads_pure, exists_prop]
  constructor
  · rintro ⟨e, r, first, more, _, second, rfl, rfl⟩
    exact ⟨e, more, r, first, second, rfl⟩
  · rintro ⟨e, more, r, first, second, rfl⟩
    exact ⟨e, r, first, more, rest, second, rfl, rfl⟩

/-- After an argument there is another one or the parenthesis. -/
theorem reads_argumentTail {es : List Expr}
    : Reads (argumentTail frame (t :: ts)) es rest
      ↔ (t.kind = .comma ∧ Reads (argumentList frame ts) es rest)
        ∨ (t.kind = .closeParen ∧ es = [] ∧ rest = ts) := by
  rw [argumentTail]
  exact reads_listTail

theorem not_reads_argumentTail {es : List Expr} : ¬ Reads (argumentTail frame []) es rest := by
  rw [argumentTail]
  exact not_reads_error

/-- Arguments are none if their parenthesis follows at once. -/
theorem reads_arguments {es : List Expr}
    : Reads (arguments frame ts) es rest
      ↔ (∃ t, ts = t :: rest ∧ t.kind = .closeParen ∧ es = [])
        ∨ ((∀ t ∈ ts.head?, t.kind ≠ .closeParen) ∧ Reads (argumentList frame ts) es rest) := by
  cases ts with
  | nil =>
      rw [arguments, reads_argumentList]
      simp [reads_expr, unary]
  | cons t r =>
      rw [arguments]
      split
      · next own => simp [own, eq_comm, and_comm]
      · next other => simp [other]

end Grammar

end SlotC
