import SlotC.Proofs.Grammar.Precedence

/-! Forms that stand for others. An element of an array is what its address with the index added
to it points to, a comparison is the opposite one with its operands exchanged, and a minus sign is
a subtraction from zero. The operands may be of any size: the tokens that are read as one spell a
term, and the term is read again wherever it is spelled.
-/

namespace SlotC

/-- A token of the given kind. -/
abbrev Token.OfKind (kind : Kind) : Type :=
  { t : Token // t.kind = kind }

/-- A token of one kind and one of another, to stand around others. -/
structure Enclosing (opening closing : Kind) where
  first : Token.OfKind opening
  last : Token.OfKind closing

/-- The tokens with the two around them. -/
def Enclosing.around {opening closing : Kind} (pair : Enclosing opening closing)
    (ts : List Token)
    : List Token :=
  pair.first.val :: (ts ++ [pair.last.val])

abbrev Parens : Type :=
  Enclosing .openParen .closeParen

abbrev Brackets : Type :=
  Enclosing .openBracket .closeBracket

namespace Grammar

variable {frame : Frame} {layer : Layer} {least : Nat} {l p x y r rest : List Token} {t : Token}
variable {o : Operator} {e a b : Expr} {term first : Term}

/-- The next token neither extends an expression nor belongs to a name before it. -/
def Closed (ts : List Token) : Prop :=
  ∀ t ∈ ts.head?, t.kind.operator? = none ∧ t.kind ≠ .openParen ∧ t.kind ≠ .openBracket

theorem Closed.stops (closed : Closed r) : Stops least r := by
  intro t head o own
  rw [(closed t head).1] at own
  cases own

theorem Closed.ends (closed : Closed r) : Ends r :=
  fun t head => (closed t head).2

/-- Nothing extends an operand before such a token. -/
theorem Closed.reads_expr (closed : Closed r) (read : Reads (unary frame l) e r)
    : Reads (expr frame least l) e r :=
  (reads_expr_of_unary read).mpr ((reads_climb_stop closed.stops).mpr ⟨rfl, rfl⟩)

-----------------------------------------------------------------------------------------
-- Terms with other tokens after them
-----------------------------------------------------------------------------------------

/-- The tokens that are read as an expression spell it. -/
theorem spelled_of_reads (cuts : layer.Cuts least)
    (read : Reads (expr frame least (l ++ rest)) e r) (same : r.length = rest.length)
    : ∃ term, Term.Spelled layer l term ∧ term.expr? frame = some e := by
  obtain ⟨l', term, split, spelled, value, -⟩ := expr_spelled _ cuts read
  obtain ⟨rfl, -⟩ := List.append_inj' split same.symm
  exact ⟨term, spelled, value⟩

/-- A term in parentheses is an operand that ends by itself, so anything may follow. -/
theorem reads_unary_group (parens : Parens) (spelled : Term.Spelled .assignment l term)
    (value : term.expr? frame = some e)
    : Reads (unary frame (parens.around l ++ r)) e r := by
  obtain ⟨⟨left, opening⟩, ⟨right, closing⟩⟩ := parens
  have closes : right.kind.closes := by rw [closing]; rfl
  have inner : Reads (primary frame (left :: (l ++ right :: r))) e r :=
    (reads_primary_group opening).mpr ⟨right, reads_of_spelled spelled value closes, closing⟩
  rw [Enclosing.around, List.cons_append, List.append_assoc]
  exact (reads_unary_operand (.inr (.inl opening))).mpr inner

/-- An operand and a term in parentheses, joined and put in parentheses again. -/
theorem reads_unary_joined (outer inner : Parens) (operand : Term.Primary p first)
    (value : first.expr? frame = some a) (own : t.kind.operator? = some o)
    (spelled : Term.Spelled .assignment l term) (value' : term.expr? frame = some b)
    : Reads (unary frame (outer.around (p ++ t :: inner.around l) ++ r)) (o.build a b) r := by
  have grouped : Term.Primary (inner.around l) term := .group inner.first.2 spelled inner.last.2
  have stops : Stops Layer.unary.after.least [t] := stops_unary
  have joined : Term.Spelled o.layer (p ++ t :: inner.around l) (.joined o first term) :=
    .join own (Term.spelled_primary operand) (stops t rfl o own) (Term.spelled_primary grouped)
  exact reads_unary_group outer (joined.looser o.layer.least_assignment_le)
    (Term.expr?_joined.mpr ⟨a, b, value, value', rfl⟩)

-----------------------------------------------------------------------------------------
-- The three forms
-----------------------------------------------------------------------------------------

/-- What is read as an element has a name that is known and an index in the brackets. -/
theorem element_of_reads {name : Token} {brackets : Brackets} (own : name.kind = .identifier)
    (read : Reads (unary frame (name :: brackets.around l ++ r)) e r)
    : ∃ id term index, frame.lookup? name.text = some id ∧ Term.Spelled .assignment l term
        ∧ term.expr? frame = some index ∧ e = .deref (.binary .add (.var id) index) := by
  obtain ⟨⟨left, opening⟩, ⟨right, closing⟩⟩ := brackets
  rw [Enclosing.around, List.cons_append, List.cons_append, List.append_assoc,
    reads_unary_operand (.inl own), reads_primary_element own opening] at read
  obtain ⟨id, index, last, found, inner, -, rfl⟩ := read
  -- As much is left as there is from the bracket on, so the index is all that stands before it.
  obtain ⟨term, spelled, value⟩ := spelled_of_reads Layer.cuts_zero inner rfl
  exact ⟨id, term, index, found, spelled, value, rfl⟩

/-- An element is what the sum of the name and the index points to. -/
theorem reads_element_expanded {name star plus : Token} {brackets : Brackets}
    (own : name.kind = .identifier) (content : star.kind = Sign.content.kind)
    (adds : plus.kind.operator? = some (.direct .add)) (outer inner : Parens)
    (read : Reads (unary frame (name :: brackets.around l ++ r)) e r)
    : Reads (unary frame (star :: outer.around (name :: plus :: inner.around l) ++ r)) e r := by
  obtain ⟨id, term, index, found, spelled, value, rfl⟩ := element_of_reads own read
  have named : (Term.name name).expr? frame = some (.var id) :=
    Term.expr?_name.mpr ⟨id, found, rfl⟩
  have sum := reads_unary_joined (r := r) outer inner (.name own) named adds spelled value
  exact (reads_unary_signed content).mpr ⟨.binary .add (.var id) index, sum, rfl⟩

/-- An operator that groups to the left, between two terms that its right operand may be. -/
theorem reads_joined (own : t.kind.operator? = some o) (chained : o ≠ .assign)
    (before : Reads (expr frame o.rightPrecedence x) a [])
    (after : Reads (expr frame o.rightPrecedence y) b []) (closed : Closed r)
    : Reads (expr frame 0 (x ++ t :: y ++ r)) (o.build a b) r := by
  rw [← x.append_nil] at before
  rw [← y.append_nil] at after
  obtain ⟨term, spelled, value⟩ := spelled_of_reads o.cuts_right before rfl
  obtain ⟨term', spelled', value'⟩ := spelled_of_reads o.cuts_right after rfl
  have lower : o.layer.least < o.layer.after.least := by
    rw [(Operator.chained_layer chained).2.1]
    exact Layer.least_lt_tighter o.layer_ne_unary
  have joined : Term.Spelled o.layer (x ++ t :: y) (.joined o term term') :=
    .join own (spelled.looser (Nat.le_of_lt lower)) (o.least_layer ▸ lower) spelled'
  have built : (Term.joined o term term').expr? frame = some (o.build a b) :=
    Term.expr?_joined.mpr ⟨a, b, value, value', rfl⟩
  exact (reads_expr_of_spelled joined built (Nat.zero_le _) closed.stops closed.ends).mpr
    ((reads_climb_stop closed.stops).mpr ⟨rfl, rfl⟩)

/-- An operator that exchanges its operands and the one that does not build the same. -/
theorem reads_exchanged {greater less : Token} {op : BinaryOp}
    (flips : greater.kind.operator? = some (.flipped op))
    (keeps : less.kind.operator? = some (.direct op))
    (first : Reads (expr frame (op.precedence + 1) x) a [])
    (second : Reads (expr frame (op.precedence + 1) y) b []) (closed : Closed r)
    : Reads (expr frame 0 (x ++ greater :: y ++ r)) (.binary op b a) r
      ∧ Reads (expr frame 0 (y ++ less :: x ++ r)) (.binary op b a) r :=
  ⟨reads_joined flips nofun first second closed, reads_joined keeps nofun second first closed⟩

/-- A minus sign is a subtraction from zero. -/
theorem reads_negated {minus minus' zero : Token} (negates : minus.kind = Sign.minus.kind)
    (subtracts : minus'.kind.operator? = some (.direct .subtract))
    (number : zero.kind = .constant) (value : zero.value = 0) (outer inner : Parens)
    (read : Reads (unary frame l) a []) (closed : Closed r)
    : Reads (unary frame (minus :: l ++ r)) (.binary .subtract (.constant 0) a) r
      ∧ Reads (unary frame (outer.around (zero :: minus' :: inner.around l) ++ r))
          (.binary .subtract (.constant 0) a) r := by
  obtain ⟨l', term, split, spelled, known⟩ := unary_spelled _ read
  obtain rfl : l = l' := by simpa using split
  constructor
  · have operand : Reads (unary frame (l ++ r)) a r :=
      reads_unary_of_spelled spelled known closed.ends
    exact (reads_unary_signed negates).mpr ⟨a, operand, rfl⟩
  · have zero' : (Term.number zero).expr? frame = some (.constant 0) := by rw [Term.expr?, value]
    have whole : Term.Spelled .assignment l term :=
      Term.Spelled.looser (.operand spelled) (Layer.least_le_unary _)
    exact reads_unary_joined outer inner (.number number) zero' subtracts whole known

end Grammar

open Grammar

/-- Every form is read as the same expression as the longer one that it stands for. An element may
be followed by anything; what follows a comparison or an operand with a sign must not belong to it.
The operands of a comparison are what 36, the precedence after its own, lets in.
-/
theorem forms_expand (frame : Frame) (r : List Token)
    : (∀ (name : Token.OfKind .identifier) (brackets : Brackets) (star : Token.OfKind .star)
          (plus : Token.OfKind .plus) (outer inner : Parens) (index : List Token) (e : Expr),
        Reads (unary frame (name.val :: brackets.around index ++ r)) e r
        → Reads (unary frame
            (star.val :: outer.around (name.val :: plus.val :: inner.around index) ++ r)) e r)
      ∧ (Closed r → ∀ (x y : List Token) (a b : Expr),
          Reads (expr frame 36 x) a [] → Reads (expr frame 36 y) b []
          → (∀ (greater : Token.OfKind .greater) (less : Token.OfKind .less),
              Reads (expr frame 0 (x ++ greater.val :: y ++ r)) (.binary .less b a) r
              ∧ Reads (expr frame 0 (y ++ less.val :: x ++ r)) (.binary .less b a) r)
            ∧ ∀ (greater : Token.OfKind .greaterEqual) (less : Token.OfKind .lessEqual),
                Reads (expr frame 0 (x ++ greater.val :: y ++ r)) (.binary .lessEqual b a) r
                ∧ Reads (expr frame 0 (y ++ less.val :: x ++ r)) (.binary .lessEqual b a) r)
      ∧ (Closed r → ∀ (minus minus' : Token.OfKind .minus) (zero : Token.OfKind .constant)
          (outer inner : Parens) (u : List Token) (a : Expr),
          zero.val.value = 0 → Reads (unary frame u) a []
          → ∀ ts ∈ [minus.val :: u, outer.around (zero.val :: minus'.val :: inner.around u)],
              Reads (unary frame (ts ++ r)) (.binary .subtract (.constant 0) a) r
              ∧ ∀ least,
                  Reads (expr frame least (ts ++ r)) (.binary .subtract (.constant 0) a) r) := by
  refine ⟨?_, ?_, ?_⟩
  · intro name brackets star plus outer inner index e read
    have adds : plus.val.kind.operator? = some (.direct .add) := by rw [plus.2]; rfl
    exact reads_element_expanded name.2 star.2 adds outer inner read
  · intro closed x y a b first second
    constructor
    · intro greater less
      have flips : greater.val.kind.operator? = some (.flipped .less) := by rw [greater.2]; rfl
      have keeps : less.val.kind.operator? = some (.direct .less) := by rw [less.2]; rfl
      exact reads_exchanged flips keeps first second closed
    · intro greater less
      have flips : greater.val.kind.operator? = some (.flipped .lessEqual) := by
        rw [greater.2]; rfl
      have keeps : less.val.kind.operator? = some (.direct .lessEqual) := by rw [less.2]; rfl
      exact reads_exchanged flips keeps first second closed
  · intro closed minus minus' zero outer inner u a value read ts listed
    have subtracts : minus'.val.kind.operator? = some (.direct .subtract) := by
      rw [minus'.2]; rfl
    obtain ⟨short, long⟩ := reads_negated minus.2 subtracts zero.2 value outer inner read closed
    have here : Reads (unary frame (ts ++ r)) (.binary .subtract (.constant 0) a) r := by
      simp only [List.mem_cons, List.not_mem_nil, or_false] at listed
      rcases listed with rfl | rfl
      · exact short
      · exact long
    exact ⟨here, fun least => closed.reads_expr here⟩

namespace Assigning

/-- A frame with an array and a number. -/
def frame : Frame :=
  ⟨[⟨"a", .int, 24, 0, 2, none⟩, ⟨"i", .int, 28, 0, 0, none⟩], 28⟩

def mark (kind : Kind) : Token.OfKind kind :=
  ⟨⟨kind, "", 0, 0⟩, rfl⟩

def name (text : String) : Token.OfKind .identifier :=
  ⟨⟨.identifier, text, 0, 0⟩, rfl⟩

/-- An index that assigns. -/
def index : List Token :=
  [(name "i").val, (mark .assign).val, (mark .constant).val]

def parens : Parens :=
  ⟨mark .openParen, mark .closeParen⟩

def brackets : Brackets :=
  ⟨mark .openBracket, mark .closeBracket⟩

/-- The element of the array with the index. -/
def element : List Token :=
  (name "a").val :: brackets.around index

/-- The expression that the element is. -/
def tree : Expr :=
  .deref (.binary .add (.var 0) (.assign (.var 1) (.constant 0)))

end Assigning

open Assigning

/-- The sum of the name and the assignment may have a bracket after it. The element and a number
are compared and a sign is put in front of the element, before a semicolon.
-/
theorem forms_expand_assigning
    : Reads (unary frame (element ++ [(mark .openBracket).val])) tree [(mark .openBracket).val]
      ∧ Reads (unary frame ((mark .star).val
            :: parens.around ((name "a").val :: (mark .plus).val :: parens.around index)
            ++ [(mark .openBracket).val])) tree [(mark .openBracket).val]
      ∧ Closed [(mark .semicolon).val]
      ∧ Reads (expr frame 36 element) tree []
      ∧ Reads (expr frame 36 [(name "i").val]) (.var 1) []
      ∧ Reads (expr frame 0
            ([(name "i").val] ++ (mark .less).val :: element ++ [(mark .semicolon).val]))
          (.binary .less (.var 1) tree) [(mark .semicolon).val]
      ∧ Reads (unary frame element) tree []
      ∧ Reads (unary frame
            (parens.around ((mark .constant).val :: (mark .minus).val :: parens.around element)
            ++ [(mark .semicolon).val]))
          (.binary .subtract (.constant 0) tree) [(mark .semicolon).val] := by
  have followed : Reads (unary frame (element ++ [(mark .openBracket).val])) tree
      [(mark .openBracket).val] :=
    ⟨by decide, by with_unfolding_all rfl⟩
  have closed : Closed [(mark .semicolon).val] := by
    intro t head
    cases head
    decide
  have left : Reads (expr frame 36 element) tree [] := ⟨by decide, by with_unfolding_all rfl⟩
  have right : Reads (expr frame 36 [(name "i").val]) (.var 1) [] :=
    ⟨by decide, by with_unfolding_all rfl⟩
  have alone : Reads (unary frame element) tree [] := ⟨by decide, by with_unfolding_all rfl⟩
  have elements := (forms_expand frame [(mark .openBracket).val]).1
  obtain ⟨-, comparisons, signs⟩ := forms_expand frame [(mark .semicolon).val]
  have compared := (comparisons closed _ _ _ _ left right).1 (mark .greater) (mark .less)
  have negated := signs closed (mark .minus) (mark .minus) (mark .constant) parens parens element
    tree rfl alone
  refine ⟨followed, ?_, closed, left, right, compared.2, alone, ?_⟩
  · exact elements (name "a") brackets (mark .star) (mark .plus) parens parens index tree followed
  · exact (negated _ (List.mem_cons_of_mem _ (List.mem_singleton_self _))).1

end SlotC
