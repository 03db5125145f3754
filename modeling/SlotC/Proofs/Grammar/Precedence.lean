import SlotC.Proofs.Grammar.Expr

/-! Reading by climbing against the layers of the grammar. What is read as an expression is
spelled as one, and every term that is spelled is read as the expression that it stands for,
unless what follows would extend it.
-/

namespace SlotC

namespace Layer

/-- How tightly the operators of the layer bind, at least. -/
def least : Layer → Nat
  | .assignment => 1
  | .equality => 30
  | .relational => 35
  | .additive => 45
  | .multiplicative => 50
  | .unary => 51

/-- The layer of what may stand to the right of an operator of the layer. -/
def after : Layer → Layer
  | .assignment => .assignment
  | layer => layer.tighter

/-- The bound lets in the operators of the layer and those that bind more tightly. -/
def Cuts (layer : Layer) (bound : Nat) : Prop :=
  ∀ o : Operator, o.precedence < bound ↔ o.precedence < layer.least

theorem least_tighter (layer : Layer) : layer.least ≤ layer.tighter.least := by
  cases layer <;> decide

theorem least_le_unary (layer : Layer) : layer.least ≤ Layer.unary.least := by
  cases layer <;> decide

theorem least_assignment_le (layer : Layer) : Layer.assignment.least ≤ layer.least := by
  cases layer <;> decide

theorem least_after_tighter (layer : Layer) : layer.after.least ≤ layer.tighter.after.least := by
  cases layer <;> decide

/-- The layers between two layers. -/
theorem tighter_of_lt {layer own : Layer} (lt : layer.least < own.least)
    : layer.tighter.least ≤ own.least ∧ layer.least < layer.tighter.least := by
  revert lt
  cases layer <;> cases own <;> decide

theorem le_least_iff {layer other : Layer} (inner : layer ≠ .unary)
    : other.least ≤ layer.least ↔ other.least < layer.tighter.least := by
  revert inner
  cases layer <;> cases other <;> decide

theorem least_lt_tighter {layer : Layer} (inner : layer ≠ .unary)
    : layer.least < layer.tighter.least :=
  (le_least_iff inner).mp (Nat.le_refl _)

theorem least_injective {layer own : Layer} (same : layer.least = own.least) : layer = own := by
  revert same
  cases layer <;> cases own <;> decide

end Layer

/-- The layer of an operation. -/
def BinaryOp.layer : BinaryOp → Layer
  | .multiply | .divide => .multiplicative
  | .add | .subtract => .additive
  | .less | .lessEqual => .relational
  | .equal | .notEqual => .equality

namespace Operator

/-- The layer of an operator. -/
def layer : Operator → Layer
  | .assign => .assignment
  | .direct op | .flipped op => op.layer

variable {kind : Kind} {o : Operator} {layer : Layer}

theorem least_layer (o : Operator) : o.layer.least = o.precedence := by
  cases o with
  | assign => rfl
  | direct op | flipped op => cases op <;> rfl

/-- The operators of the grammar are those that are read. -/
theorem of_mem (own : (kind, o) ∈ layer.operators)
    : kind.operator? = some o ∧ o.layer = layer ∧ o ≠ .assign := by
  have all : ∀ p ∈ layer.operators,
      p.1.operator? = some p.2 ∧ p.2.layer = layer ∧ p.2 ≠ .assign := by
    cases layer <;> decide
  exact all _ own

/-- The operators that are read are found in their layers by their tokens. -/
theorem lookup_operators (own : kind.operator? = some o) (chained : o ≠ .assign)
    : o.layer.operators.lookup kind = some o := by
  cases kind with
  | assign =>
      cases own
      exact absurd rfl chained
  | plus | minus | star | slash | equal | notEqual | less | greater | lessEqual | greaterEqual =>
      cases own
      rfl
  | _ => cases own

/-- The operators that are read are those of the grammar. -/
theorem mem_operators (own : kind.operator? = some o) (chained : o ≠ .assign)
    : (kind, o) ∈ o.layer.operators := by
  obtain ⟨before, after, split, -⟩ := List.lookup_eq_some_iff.mp (lookup_operators own chained)
  simp [split]

theorem assign_of_operator (own : kind.operator? = some .assign) : kind = .assign := by
  cases kind <;> cases own
  rfl

theorem layer_ne_unary (o : Operator) : o.layer ≠ .unary := by
  cases o with
  | assign => decide
  | direct op | flipped op => cases op <;> decide

/-- Every operator but assignment groups to the left. -/
theorem chained_layer (chained : o ≠ .assign)
    : o.layer ≠ .assignment ∧ o.layer.after = o.layer.tighter
      ∧ o.rightPrecedence = o.layer.least + 1 := by
  cases o with
  | assign => exact absurd rfl chained
  | direct op | flipped op => cases op <;> decide

/-- The bound for the right operand of an operator. -/
theorem cuts_right (o : Operator) : o.layer.after.Cuts o.rightPrecedence := by
  by_cases assigns : o = .assign
  · subst assigns
    exact fun o' => Iff.rfl
  · obtain ⟨-, next, right⟩ := chained_layer assigns
    intro o'
    rw [next, right, Nat.lt_succ_iff, ← least_layer o']
    exact Layer.le_least_iff o.layer_ne_unary

end Operator

/-- An expression may have every operator. -/
theorem Layer.cuts_zero : Layer.assignment.Cuts 0 := by
  intro o
  rw [← o.least_layer]
  cases o.layer <;> decide

namespace Term

/-- A term of a layer is a term of every looser layer. -/
theorem Spelled.looser {layer own : Layer} {ts : List Token} {e : Term}
    (spelled : Spelled own ts e) (le : layer.least ≤ own.least)
    : Spelled layer ts e := by
  rcases Nat.lt_or_eq_of_le le with lt | same
  · obtain ⟨le', grows⟩ := Layer.tighter_of_lt lt
    exact .tighter (spelled.looser le')
  · cases Layer.least_injective same
    exact spelled
termination_by own.least - layer.least

/-- An operand without operators may stand in any place. -/
theorem spelled_primary {place : Layer} {ts : List Token} {term : Term} (primary : Primary ts term)
    : Spelled place ts term :=
  Spelled.looser (.operand (.primary primary)) place.least_le_unary

/-- An operator between two terms. -/
theorem Spelled.join {layer : Layer} {l r : List Token} {t : Token} {o : Operator} {a b : Term}
    (own : t.kind.operator? = some o) (left : Spelled layer l a)
    (lower : o.precedence < layer.after.least) (right : Spelled o.layer.after r b)
    : Spelled o.layer (l ++ t :: r) (.joined o a b) := by
  rw [← Operator.least_layer] at lower
  by_cases assigns : o = .assign
  · subst assigns
    refine .assign (left.looser ?_) (Operator.assign_of_operator own) right
    revert lower
    cases layer <;> decide
  · obtain ⟨notFirst, next, -⟩ := Operator.chained_layer assigns
    have notLast := o.layer_ne_unary
    refine .chain (left.looser ?_) (Operator.mem_operators own assigns) (next ▸ right)
    revert lower notFirst notLast
    cases layer <;> cases o.layer <;> decide

end Term

/-- The kinds of token that stand after an expression. -/
def Kind.closes : Kind → Bool
  | .closeParen | .closeBracket | .semicolon | .comma => true
  | _ => false

/-- The kinds of token that an expression starts with. -/
def Kind.startsTerm : Kind → Bool
  | .identifier | .constant | .openParen | .plus | .minus | .ampersand | .star | .sizeofWord =>
    true
  | _ => false

namespace Grammar

variable {frame : Frame} {ts rest : List Token} {least : Nat} {layer : Layer}

theorem Stops.mono {bound : Nat} (stops : Stops least ts) (le : least ≤ bound) : Stops bound ts :=
  fun t head o own => Nat.lt_of_lt_of_le (stops t head o own) le

/-- A bound for a layer is as good as the precedence of the layer. -/
theorem stops_iff (cuts : layer.Cuts least) : Stops least ts ↔ Stops layer.least ts := by
  constructor
  · intro stops t head o own
    exact (cuts o).mp (stops t head o own)
  · intro stops t head o own
    exact (cuts o).mpr (stops t head o own)

/-- No operator binds as tightly as an operand. -/
theorem stops_unary : Stops Layer.unary.least ts := by
  intro t _ o _
  have inner := o.layer_ne_unary
  rw [← o.least_layer]
  revert inner
  cases o.layer <;> decide

-----------------------------------------------------------------------------------------
-- What is read is spelled
-----------------------------------------------------------------------------------------

mutual

/-- What is read as an expression is spelled by the tokens that are read. -/
theorem expr_spelled (ts : List Token) {layer : Layer} {least : Nat} {rest : List Token}
    {e : Expr} (cuts : layer.Cuts least) (read : Reads (expr frame least ts) e rest)
    : ∃ l term, ts = l ++ rest ∧ Term.Spelled layer l term ∧ term.expr? frame = some e
        ∧ Stops layer.least rest := by
  obtain ⟨left, r, first, second⟩ := reads_expr.mp read
  have fewer := first.fewer
  obtain ⟨l, term, rfl, unary, value⟩ := unary_spelled ts first
  obtain ⟨l', term', rfl, spelled, value', stops⟩ :=
    climb_spelled r cuts (.operand unary) value stops_unary layer.least_le_unary second
  exact ⟨l ++ l', term', (List.append_assoc l l' rest).symm, spelled, value', stops⟩
termination_by 4 * ts.length + 2
decreasing_by all_goals omega

/-- What extends an expression is spelled after it. -/
theorem climb_spelled (ts : List Token) {layer own : Layer} {least : Nat} {l rest : List Token}
    {term : Term} {left e : Expr} (cuts : layer.Cuts least) (before : Term.Spelled own l term)
    (value : term.expr? frame = some left) (closed : Stops own.after.least ts)
    (le : layer.least ≤ own.least) (read : Reads (climb frame least left ts) e rest)
    : ∃ l' term', ts = l' ++ rest ∧ Term.Spelled layer (l ++ l') term'
        ∧ term'.expr? frame = some e ∧ Stops layer.least rest := by
  by_cases stops : Stops least ts
  · obtain ⟨rfl, rfl⟩ := (reads_climb_stop stops).mp read
    refine ⟨[], term, rfl, ?_, value, (stops_iff cuts).mp stops⟩
    rw [List.append_nil]
    exact before.looser le
  · match ts, closed, read with
    | [], _, _ => exact absurd (by simp [Stops]) stops
    | t :: ts, closed, read =>
        simp only [Stops, List.head?_cons, Option.mem_def, Option.some.injEq, forall_eq',
          not_forall, Nat.not_lt] at stops
        obtain ⟨o, operator, binds⟩ := stops
        obtain ⟨right, r, first, second⟩ := (reads_climb_operator operator binds).mp read
        have fewer := first.fewer
        obtain ⟨l₂, term₂, same, spelled₂, value₂, stops₂⟩ := expr_spelled ts o.cuts_right first
        have lower := closed t rfl o operator
        have joined := Term.Spelled.join operator before lower spelled₂
        have value' : (Term.joined o term term₂).expr? frame = some (o.build left right) := by
          exact Term.expr?_joined.mpr ⟨left, right, value, value₂, rfl⟩
        have le' : layer.least ≤ o.layer.least := by
          rw [o.least_layer]
          exact Nat.le_of_not_lt fun lt => Nat.not_lt.mpr binds ((cuts o).mpr lt)
        obtain ⟨l', term', rfl, spelled, value, stops⟩ :=
          climb_spelled r cuts joined value' stops₂ le' second
        refine ⟨t :: (l₂ ++ l'), term', ?_, ?_, value, stops⟩
        · rw [same, List.cons_append, List.append_assoc]
        · rw [← List.cons_append, ← List.append_assoc]
          exact spelled
termination_by 4 * ts.length
decreasing_by all_goals simp only [List.length_cons] at *; omega

/-- What is read as an operand with signs is spelled by the tokens that are read. -/
theorem unary_spelled (ts : List Token) {rest : List Token} {e : Expr}
    (read : Reads (unary frame ts) e rest)
    : ∃ l term, ts = l ++ rest ∧ Term.Unary l term ∧ term.expr? frame = some e := by
  match ts, read with
  | [], read =>
      rw [unary] at read
      exact absurd read not_reads_error
  | t :: ts, read =>
      by_cases signed : ∃ sign : Sign, t.kind = sign.kind
      · obtain ⟨sign, own⟩ := signed
        obtain ⟨operand, inner, rfl⟩ := (reads_unary_signed own).mp read
        obtain ⟨l, term, rfl, spelled, value⟩ := unary_spelled ts inner
        exact ⟨t :: l, .signed sign term, rfl, .signed own spelled,
          Term.expr?_signed.mpr ⟨operand, value, rfl⟩⟩
      · by_cases size : t.kind = .sizeofWord
        · obtain ⟨operand, size', inner, found, rfl⟩ := (reads_unary_size size).mp read
          obtain ⟨l, term, rfl, spelled, value⟩ := unary_spelled ts inner
          exact ⟨t :: l, .size term, rfl, .size size spelled,
            Term.expr?_size.mpr ⟨operand, size', value, found, rfl⟩⟩
        · have inner := (reads_unary_primary (not_exists.mp signed) size).mp read
          obtain ⟨l, term, same, spelled, value⟩ := primary_spelled (t :: ts) inner
          exact ⟨l, term, same, .primary spelled, value⟩
termination_by 4 * ts.length + 1
decreasing_by all_goals simp only [List.length_cons] at *; omega

/-- What is read as an operand is spelled by the tokens that are read. -/
theorem primary_spelled (ts : List Token) {rest : List Token} {e : Expr}
    (read : Reads (primary frame ts) e rest)
    : ∃ l term, ts = l ++ rest ∧ Term.Primary l term ∧ term.expr? frame = some e := by
  match ts, read with
  | [], read =>
      rw [primary] at read
      exact absurd read not_reads_error
  | t :: ts, read =>
      rcases primary_starts read with own | own | own
      · by_cases alone : ∀ next ∈ ts.head?, next.kind ≠ .openParen ∧ next.kind ≠ .openBracket
        · obtain ⟨id, found, rfl, rfl⟩ := (reads_primary_name own alone).mp read
          exact ⟨[t], .name t, rfl, .name own, Term.expr?_name.mpr ⟨id, found, rfl⟩⟩
        · match ts, alone, read with
          | [], alone, _ => exact absurd (by simp) alone
          | next :: ts, alone, read =>
              by_cases opening : next.kind = .openParen
              · obtain ⟨es, inner, rfl⟩ := (reads_primary_call own opening).mp read
                rcases reads_arguments.mp inner with ⟨last, rfl, closing, rfl⟩ | ⟨-, inner⟩
                · exact ⟨[t, next, last], .call t [], rfl, .callNone own opening closing, rfl⟩
                · obtain ⟨l, terms, last, rfl, spelled, closing, value⟩ :=
                    argumentList_spelled ts inner
                  exact ⟨t :: next :: (l ++ [last]), .call t terms, by simp,
                    .call own opening spelled closing, Term.expr?_call.mpr ⟨es, value, rfl⟩⟩
              · have bracket : next.kind = .openBracket := by
                  by_contra other
                  exact alone (by simp [opening, other])
                obtain ⟨id, index, last, found, inner, closing, rfl⟩ :=
                  (reads_primary_element own bracket).mp read
                obtain ⟨l, term, rfl, spelled, value, -⟩ := expr_spelled ts Layer.cuts_zero inner
                exact ⟨t :: next :: (l ++ [last]), .element t term, by simp,
                  .element own bracket spelled closing,
                  Term.expr?_element.mpr ⟨id, index, found, value, rfl⟩⟩
      · obtain ⟨last, inner, closing⟩ := (reads_primary_group own).mp read
        obtain ⟨l, term, rfl, spelled, value, -⟩ := expr_spelled ts Layer.cuts_zero inner
        exact ⟨t :: (l ++ [last]), term, by simp, .group own spelled closing, value⟩
      · obtain ⟨rfl, rfl⟩ := (reads_primary_constant own).mp read
        exact ⟨[t], .number t, rfl, .number own, rfl⟩
termination_by 4 * ts.length
decreasing_by all_goals simp only [List.length_cons] at *; omega

/-- What is read as arguments is spelled by the tokens up to the parenthesis. -/
theorem argumentList_spelled (ts : List Token) {rest : List Token} {es : List Expr}
    (read : Reads (argumentList frame ts) es rest)
    : ∃ l terms last, ts = l ++ last :: rest ∧ Term.Arguments l terms
        ∧ last.kind = .closeParen ∧ Term.exprs? frame terms = some es := by
  obtain ⟨e, more, r, first, second, rfl⟩ := reads_argumentList.mp read
  obtain ⟨t, r', rfl⟩ : ∃ t r', r = t :: r' := by
    cases r with
    | nil => exact absurd second not_reads_argumentTail
    | cons t r' => exact ⟨t, r', rfl⟩
  have fewer := first.fewer
  obtain ⟨l, term, same, spelled, value, -⟩ := expr_spelled ts Layer.cuts_zero first
  rcases reads_argumentTail.mp second with ⟨comma, others⟩ | ⟨closing, rfl, rfl⟩
  · obtain ⟨l', terms, last, rfl, spelled', closing, values⟩ := argumentList_spelled r' others
    exact ⟨l ++ t :: l', term :: terms, last, by simp [same], .more spelled comma spelled',
      closing, Term.exprs?_cons.mpr ⟨e, more, value, values, rfl⟩⟩
  · exact ⟨l, [term], t, same, .last spelled, closing,
      Term.exprs?_cons.mpr ⟨e, [], value, rfl, rfl⟩⟩
termination_by 4 * ts.length + 3
decreasing_by all_goals simp only [List.length_cons] at *; omega

end

-----------------------------------------------------------------------------------------
-- What is spelled is read
-----------------------------------------------------------------------------------------

/-- The next token is none that would belong to a name before it. -/
def Ends (ts : List Token) : Prop :=
  ∀ t ∈ ts.head?, t.kind ≠ .openParen ∧ t.kind ≠ .openBracket

/-- An operator ends an operand. -/
theorem ends_operator {t : Token} {o : Operator} (own : t.kind.operator? = some o)
    : Ends (t :: ts) := by
  intro t' head
  cases head
  constructor
  · intro same
    rw [same] at own
    cases own
  · intro same
    rw [same] at own
    cases own

theorem stops_operator {t : Token} {o : Operator} (own : t.kind.operator? = some o)
    (lt : o.precedence < least)
    : Stops least (t :: ts) := by
  intro t' head o' own'
  cases head
  cases own.symm.trans own'
  exact lt

theorem stops_closing {t : Token} (closes : t.kind.closes) : Stops least (t :: ts) := by
  intro t' head o own
  cases head
  cases kind : t.kind <;> simp_all [Kind.closes, Kind.operator?, Kind.binaryOp?]

theorem ends_closing {t : Token} (closes : t.kind.closes) : Ends (t :: ts) := by
  intro t' head
  cases head
  constructor <;> intro same <;> simp [same, Kind.closes] at closes

/-- An operator with its right operand is read where it stands. -/
theorem reads_climb_join {t : Token} {o : Operator} {left right e : Expr} {r q : List Token}
    (own : t.kind.operator? = some o) (binds : least ≤ o.precedence)
    (stops : Stops o.layer.after.least rest)
    (operand : ∀ {x q}, Reads (expr frame o.rightPrecedence (r ++ rest)) x q
      ↔ Reads (climb frame o.rightPrecedence right rest) x q)
    : Reads (climb frame least left (t :: (r ++ rest))) e q
      ↔ Reads (climb frame least (o.build left right) rest) e q := by
  have stops' : Stops o.rightPrecedence rest := (stops_iff o.cuts_right).mpr stops
  simp only [reads_climb_operator own binds, operand, reads_climb_stop stops']
  constructor
  · rintro ⟨_, _, ⟨rfl, rfl⟩, read⟩
    exact read
  · intro read
    exact ⟨right, rest, ⟨rfl, rfl⟩, read⟩

/-- An expression is read up to a token that closes it. -/
theorem reads_expr_closed {t : Token} {e : Expr} {l : List Token} (closes : t.kind.closes)
    (extended : ∀ {x q}, Reads (expr frame 0 (l ++ t :: rest)) x q
      ↔ Reads (climb frame 0 e (t :: rest)) x q)
    : Reads (expr frame 0 (l ++ t :: rest)) e (t :: rest) :=
  extended.mpr ((reads_climb_stop (stops_closing closes)).mpr ⟨rfl, rfl⟩)

/-- What an operand ends before is read after it. -/
theorem reads_expr_of_unary {left e : Expr} {q : List Token}
    (read : Reads (unary frame ts) left rest)
    : Reads (expr frame least ts) e q ↔ Reads (climb frame least left rest) e q := by
  rw [reads_expr]
  constructor
  · rintro ⟨left', r, read', climbs⟩
    obtain ⟨rfl, rfl⟩ := read.unique read'
    exact climbs
  · intro climbs
    exact ⟨left, rest, read, climbs⟩

theorem primary_head {l : List Token} {term : Term} (spelled : Term.Primary l term)
    : ∃ t r, l = t :: r
        ∧ (t.kind = .identifier ∨ t.kind = .openParen ∨ t.kind = .constant) := by
  cases spelled with
  | number own => exact ⟨_, _, rfl, .inr (.inr own)⟩
  | name own | element own | callNone own | call own => exact ⟨_, _, rfl, .inl own⟩
  | group opening => exact ⟨_, _, rfl, .inr (.inl opening)⟩

theorem unary_head {l : List Token} {term : Term} (spelled : Term.Unary l term)
    : ∃ t r, l = t :: r ∧ t.kind.startsTerm := by
  cases spelled with
  | primary inner =>
      obtain ⟨t, r, rfl, own⟩ := primary_head inner
      refine ⟨t, r, rfl, ?_⟩
      rcases own with own | own | own <;> rw [own] <;> rfl
  | @signed _ _ t sign own =>
      refine ⟨_, _, rfl, ?_⟩
      rw [own]
      cases sign <;> rfl
  | size own =>
      refine ⟨_, _, rfl, ?_⟩
      rw [own]
      rfl

/-- An expression starts with an operand or a sign. -/
theorem spelled_head {layer : Layer} {l : List Token} {term : Term}
    (spelled : Term.Spelled layer l term)
    : ∃ t r, l = t :: r ∧ t.kind.startsTerm := by
  match spelled with
  | .operand inner => exact unary_head inner
  | .tighter inner => exact spelled_head inner
  | .chain left _ _ | .assign left _ _ =>
      obtain ⟨t, r, rfl, own⟩ := spelled_head left
      exact ⟨t, _, rfl, own⟩

theorem arguments_head {l : List Token} {terms : List Term} (spelled : Term.Arguments l terms)
    : ∃ t r, l = t :: r ∧ t.kind.startsTerm := by
  cases spelled with
  | last argument => exact spelled_head argument
  | more argument =>
      obtain ⟨t, r, rfl, own⟩ := spelled_head argument
      exact ⟨t, _, rfl, own⟩

mutual

/-- A term that is spelled is read, and what follows it extends it. -/
theorem reads_expr_of_spelled {layer : Layer} {least : Nat} {l rest q : List Token} {term : Term}
    {e x : Expr} (spelled : Term.Spelled layer l term) (value : term.expr? frame = some e)
    (le : least ≤ layer.least) (stops : Stops layer.after.least rest) (ends : Ends rest)
    : Reads (expr frame least (l ++ rest)) x q ↔ Reads (climb frame least e rest) x q := by
  match spelled with
  | .operand inner => exact reads_expr_of_unary (reads_unary_of_spelled inner value ends)
  | .tighter inner =>
      exact reads_expr_of_spelled inner value (Nat.le_trans le layer.least_tighter)
        (stops.mono layer.least_after_tighter) ends
  | @Term.Spelled.chain _ l r t o a b left own right =>
      obtain ⟨operator, same, chained⟩ := Operator.of_mem own
      obtain ⟨a', b', first, second, rfl⟩ := Term.expr?_joined.mp value
      obtain ⟨-, next, bound⟩ := Operator.chained_layer chained
      have grows := Layer.least_lt_tighter o.layer_ne_unary
      have precedence := o.least_layer
      rw [same] at next bound grows precedence
      have below : Stops layer.after.least (t :: (r ++ rest)) :=
        stops_operator operator (by rw [next, ← precedence]; exact grows)
      have operand {x : Expr} {q : List Token} := reads_expr_of_spelled (x := x) (q := q) right
        second (Nat.le_trans (Nat.le_of_eq bound) grows)
        (stops.mono layer.least_after_tighter) ends
      rw [List.append_assoc, List.cons_append,
        reads_expr_of_spelled left first le below (ends_operator operator)]
      exact reads_climb_join operator (precedence ▸ le) (same.symm ▸ stops) operand
  | @Term.Spelled.assign l r t a b left own right =>
      have operator : t.kind.operator? = some .assign := by rw [own]; rfl
      obtain ⟨a', b', first, second, rfl⟩ := Term.expr?_joined.mp value
      have below : Stops Layer.equality.after.least (t :: (r ++ rest)) :=
        stops_operator operator (by decide)
      have least : Operator.assign.rightPrecedence ≤ Layer.assignment.least := Nat.le_refl _
      have operand {x : Expr} {q : List Token} := reads_expr_of_spelled (x := x) (q := q) right
        second least stops ends
      rw [List.append_assoc, List.cons_append,
        reads_expr_of_spelled left first (Nat.le_trans le (by decide)) below
          (ends_operator operator)]
      exact reads_climb_join operator le stops operand

/-- An operand with signs that is spelled is read. -/
theorem reads_unary_of_spelled {l rest : List Token} {term : Term} {e : Expr}
    (spelled : Term.Unary l term) (value : term.expr? frame = some e) (ends : Ends rest)
    : Reads (unary frame (l ++ rest)) e rest := by
  match spelled with
  | .primary inner =>
      have read := reads_primary_of_spelled inner value ends
      obtain ⟨t, r, rfl, own⟩ := primary_head inner
      exact (reads_unary_operand own).mpr read
  | .signed own operand =>
      obtain ⟨e', inner, rfl⟩ := Term.expr?_signed.mp value
      exact (reads_unary_signed own).mpr ⟨e', reads_unary_of_spelled operand inner ends, rfl⟩
  | .size own operand =>
      obtain ⟨e', size, inner, found, rfl⟩ := Term.expr?_size.mp value
      exact (reads_unary_size own).mpr
        ⟨e', size, reads_unary_of_spelled operand inner ends, found, rfl⟩

/-- An operand that is spelled is read. -/
theorem reads_primary_of_spelled {l rest : List Token} {term : Term} {e : Expr}
    (spelled : Term.Primary l term) (value : term.expr? frame = some e) (ends : Ends rest)
    : Reads (primary frame (l ++ rest)) e rest := by
  match spelled with
  | .number own =>
      cases value
      exact (reads_primary_constant own).mpr ⟨rfl, rfl⟩
  | .name own =>
      obtain ⟨id, found, rfl⟩ := Term.expr?_name.mp value
      exact (reads_primary_name own ends).mpr ⟨id, found, rfl, rfl⟩
  | @Term.Primary.element ts index t left right own opening inner closing =>
      obtain ⟨id, index', found, value', rfl⟩ := Term.expr?_element.mp value
      have closes : right.kind.closes := by simp [closing, Kind.closes]
      have read : Reads (expr frame 0 (ts ++ right :: rest)) index' (right :: rest) :=
        reads_expr_closed closes (reads_expr_of_spelled inner value' (Nat.zero_le _)
          (stops_closing closes) (ends_closing closes))
      rw [List.cons_append, List.cons_append, List.append_assoc]
      exact (reads_primary_element own opening).mpr
        ⟨id, index', right, found, read, closing, rfl⟩
  | @Term.Primary.callNone t left right own opening closing =>
      cases value
      have none : Reads (arguments frame (right :: rest)) [] rest :=
        reads_arguments.mpr (.inl ⟨right, rfl, closing, rfl⟩)
      exact (reads_primary_call own opening).mpr ⟨[], none, rfl⟩
  | @Term.Primary.call ts es t left right own opening arguments closing =>
      obtain ⟨es', values, rfl⟩ := Term.expr?_call.mp value
      have read : Reads (argumentList frame (ts ++ right :: rest)) es' rest :=
        reads_argumentList_of_spelled arguments values closing
      rw [List.cons_append, List.cons_append, List.append_assoc]
      refine (reads_primary_call own opening).mpr ⟨es', reads_arguments.mpr (.inr ⟨?_, read⟩), rfl⟩
      obtain ⟨first, r, rfl, starts⟩ := arguments_head arguments
      intro t' head
      cases head
      intro same
      rw [same] at starts
      cases starts
  | @Term.Primary.group ts term left right opening inner closing =>
      have closes : right.kind.closes := by simp [closing, Kind.closes]
      have read : Reads (expr frame 0 (ts ++ right :: rest)) e (right :: rest) :=
        reads_expr_closed closes (reads_expr_of_spelled inner value (Nat.zero_le _)
          (stops_closing closes) (ends_closing closes))
      rw [List.cons_append, List.append_assoc]
      exact (reads_primary_group opening).mpr ⟨right, read, closing⟩

/-- Arguments that are spelled are read up to the parenthesis. -/
theorem reads_argumentList_of_spelled {l rest : List Token} {terms : List Term} {es : List Expr}
    {last : Token} (spelled : Term.Arguments l terms) (values : Term.exprs? frame terms = some es)
    (closing : last.kind = .closeParen)
    : Reads (argumentList frame (l ++ last :: rest)) es rest := by
  match spelled with
  | @Term.Arguments.last ts term argument =>
      obtain ⟨e, _, value, none, rfl⟩ := Term.exprs?_cons.mp values
      cases none
      have closes : last.kind.closes := by simp [closing, Kind.closes]
      have read : Reads (expr frame 0 (ts ++ last :: rest)) e (last :: rest) :=
        reads_expr_closed closes (reads_expr_of_spelled argument value (Nat.zero_le _)
          (stops_closing closes) (ends_closing closes))
      refine reads_argumentList.mpr ⟨e, [], last :: rest, read, ?_, rfl⟩
      exact reads_argumentTail.mpr (.inr ⟨closing, rfl, rfl⟩)
  | @Term.Arguments.more l r term terms t argument own others =>
      obtain ⟨e, es', value, values', rfl⟩ := Term.exprs?_cons.mp values
      have closes : t.kind.closes := by simp [own, Kind.closes]
      have read : Reads (expr frame 0 (l ++ t :: (r ++ last :: rest))) e
          (t :: (r ++ last :: rest)) :=
        reads_expr_closed closes (reads_expr_of_spelled argument value (Nat.zero_le _)
          (stops_closing closes) (ends_closing closes))
      have more : Reads (argumentList frame (r ++ last :: rest)) es' rest :=
        reads_argumentList_of_spelled others values' closing
      rw [List.append_assoc]
      refine reads_argumentList.mpr ⟨e, es', _, read, ?_, rfl⟩
      exact reads_argumentTail.mpr (.inl ⟨own, more⟩)

end

/-- A term that is spelled is read up to a token that closes it. -/
theorem reads_of_spelled {l : List Token} {term : Term} {e : Expr} {t : Token}
    (spelled : Term.Spelled .assignment l term) (value : term.expr? frame = some e)
    (closes : t.kind.closes)
    : Reads (expr frame 0 (l ++ t :: rest)) e (t :: rest) :=
  reads_expr_closed closes (reads_expr_of_spelled spelled value (Nat.zero_le _)
    (stops_closing closes) (ends_closing closes))

end Grammar

end SlotC
