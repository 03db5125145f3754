import SlotC.Proofs.Source.Print

/-! Tokens of what is printed. They spell what was printed: the phrases that they spell stand
for the same expressions and statements, and declare the same variables.
-/

namespace SlotC

open Lexeme (fixed grouped operand commas)

-----------------------------------------------------------------------------------------
-- Tokens of lexemes
-----------------------------------------------------------------------------------------

/-- The tokens have the lexemes. -/
def Prints (ts : List Token) (ls : List Lexeme) : Prop :=
  ts.map Token.lexeme = ls

section

variable {ts : List Token} {ls ls' : List Lexeme}

theorem prints_cons {l : Lexeme}
    : Prints ts (l :: ls) ↔ ∃ t r, ts = t :: r ∧ t.lexeme = l ∧ Prints r ls :=
  List.map_eq_cons_iff

theorem prints_append : Prints ts (ls ++ ls') ↔ ∃ l r, ts = l ++ r ∧ Prints l ls ∧ Prints r ls' :=
  List.map_eq_append_iff

theorem prints_nil : Prints ts [] ↔ ts = [] :=
  List.map_eq_nil_iff

/-- A lexeme that is written in one way only. -/
theorem prints_fixed {kind : Kind} (printed : Prints ts (fixed kind :: ls))
    : ∃ t r, ts = t :: r ∧ t.kind = kind ∧ Prints r ls := by
  obtain ⟨t, r, rfl, same, rest⟩ := prints_cons.mp printed
  exact ⟨t, r, rfl, congrArg Lexeme.kind same, rest⟩

theorem prints_last {kind : Kind} (printed : Prints ts [fixed kind])
    : ∃ t, ts = [t] ∧ t.kind = kind := by
  obtain ⟨t, r, rfl, own, rest⟩ := prints_fixed printed
  exact ⟨t, by rw [prints_nil.mp rest], own⟩

theorem prints_name {text : String} (printed : Prints ts (.name text :: ls))
    : ∃ t r, ts = t :: r ∧ t.kind = .identifier ∧ t.text = text ∧ Prints r ls := by
  obtain ⟨t, r, rfl, same, rest⟩ := prints_cons.mp printed
  exact ⟨t, r, rfl, congrArg Lexeme.kind same, congrArg Lexeme.text same, rest⟩

theorem prints_number {value : Int64} (printed : Prints ts (.number value :: ls))
    : ∃ t r, ts = t :: r ∧ t.kind = .constant ∧ t.value = value ∧ Prints r ls := by
  obtain ⟨t, r, rfl, same, rest⟩ := prints_cons.mp printed
  exact ⟨t, r, rfl, congrArg Lexeme.kind same, congrArg Lexeme.value same, rest⟩

theorem prints_grouped (printed : Prints ts (grouped ls))
    : ∃ left l right, ts = left :: (l ++ [right]) ∧ left.kind = .openParen ∧ Prints l ls
        ∧ right.kind = .closeParen := by
  obtain ⟨left, r, rfl, opening, rest⟩ := prints_fixed printed
  obtain ⟨l, r, rfl, inner, rest⟩ := prints_append.mp rest
  obtain ⟨right, rfl, closing⟩ := prints_last rest
  exact ⟨left, l, right, rfl, opening, inner, closing⟩

end

-----------------------------------------------------------------------------------------
-- Expressions
-----------------------------------------------------------------------------------------

/-- The innermost layer has no operators. -/
theorem Term.Spelled.unary {layer : Layer} {ts : List Token} {e : Term}
    (spelled : Spelled layer ts e) (last : layer = .unary)
    : Unary ts e := by
  match spelled with
  | .operand inner => exact inner
  | .tighter inner => exact inner.unary (by rw [last]; rfl)
  | .chain _ own _ =>
      subst last
      cases own
  | .assign .. => cases last

theorem BinaryOp.mem_operators (op : BinaryOp)
    : (op.kind, Operator.direct op) ∈ op.layer.operators := by
  cases op <;> decide

section

variable {frame : Frame} {ts : List Token}

/-- An operand is spelled in its place if it is spelled without parentheses in its own. -/
theorem Term.spelled_operand {own place : Layer} {ls : List Lexeme} {e : Expr}
    (printed : Prints ts (operand own place ls))
    (inner : ∀ ts, Prints ts ls → ∃ term, Term.Spelled own ts term ∧ term.expr? frame = some e)
    : ∃ term, Term.Spelled place ts term ∧ term.expr? frame = some e := by
  unfold operand at printed
  split at printed
  · obtain ⟨left, l, right, rfl, opening, printed, closing⟩ := prints_grouped printed
    obtain ⟨term, spelled, value⟩ := inner l printed
    have whole : Term.Spelled .assignment l term := spelled.looser (by cases own <;> decide)
    have group : Term.Spelled .unary (left :: (l ++ [right])) term :=
      .operand (.primary (.group opening whole closing))
    exact ⟨term, group.looser place.least_le_unary, value⟩
  · next tight =>
      obtain ⟨term, spelled, value⟩ := inner ts printed
      exact ⟨term, spelled.looser (Nat.le_of_not_lt tight), value⟩

theorem Term.spelled_signed {place : Layer} {term : Term} {t : Token} {sign : Sign}
    (own : t.kind = sign.kind) (inner : Term.Spelled .unary ts term)
    : Term.Spelled place (t :: ts) (.signed sign term) :=
  Spelled.looser (.operand (.signed own (inner.unary rfl))) place.least_le_unary

mutual

/-- What is printed of an expression spells it. -/
theorem Expr.spelled {place : Layer} {ts : List Token} (e : Expr)
    (known : ∀ id ∈ e.ids, frame.lookup? (nameOf frame.locals id) = some id)
    (printed : Prints ts (e.lexemes frame.locals place))
    : ∃ term, Term.Spelled place ts term ∧ term.expr? frame = some e := by
  match e with
  | .constant value =>
      obtain ⟨t, r, rfl, own, rfl, rest⟩ := prints_number printed
      obtain rfl := prints_nil.mp rest
      exact ⟨.number t, Term.spelled_primary (.number own), rfl⟩
  | .var id =>
      obtain ⟨t, r, rfl, own, text, rest⟩ := prints_name printed
      obtain rfl := prints_nil.mp rest
      refine ⟨.name t, Term.spelled_primary (.name own), Term.expr?_name.mpr ⟨id, ?_, rfl⟩⟩
      rw [text]
      exact known id List.mem_cons_self
  | .binary op left right =>
      obtain ⟨known₁, known₂⟩ := List.forall_mem_append.mp known
      refine Term.spelled_operand printed fun ts printed => ?_
      obtain ⟨l, r, rfl, printed₁, rest⟩ := prints_append.mp printed
      obtain ⟨t, r, rfl, own, printed₂⟩ := prints_fixed rest
      obtain ⟨a, spelled₁, value₁⟩ := left.spelled known₁ printed₁
      obtain ⟨b, spelled₂, value₂⟩ := right.spelled known₂ printed₂
      exact ⟨.joined (.direct op) a b, .chain spelled₁ (own ▸ op.mem_operators) spelled₂,
        Term.expr?_joined.mpr ⟨left, right, value₁, value₂, rfl⟩⟩
  | .assign target value =>
      obtain ⟨known₁, known₂⟩ := List.forall_mem_append.mp known
      refine Term.spelled_operand printed fun ts printed => ?_
      obtain ⟨l, r, rfl, printed₁, rest⟩ := prints_append.mp printed
      obtain ⟨t, r, rfl, own, printed₂⟩ := prints_fixed rest
      obtain ⟨a, spelled₁, value₁⟩ := target.spelled known₁ printed₁
      obtain ⟨b, spelled₂, value₂⟩ := value.spelled known₂ printed₂
      exact ⟨.joined .assign a b, .assign spelled₁ own spelled₂,
        Term.expr?_joined.mpr ⟨target, value, value₁, value₂, rfl⟩⟩
  | .addressOf e =>
      obtain ⟨t, r, rfl, own, rest⟩ := prints_fixed printed
      obtain ⟨a, spelled, value⟩ := e.spelled known rest
      exact ⟨.signed .address a, Term.spelled_signed own spelled,
        Term.expr?_signed.mpr ⟨e, value, rfl⟩⟩
  | .deref e =>
      obtain ⟨t, r, rfl, own, rest⟩ := prints_fixed printed
      obtain ⟨a, spelled, value⟩ := e.spelled known rest
      exact ⟨.signed .content a, Term.spelled_signed own spelled,
        Term.expr?_signed.mpr ⟨e, value, rfl⟩⟩
  | .call name arguments =>
      obtain ⟨t, r, rfl, own, rfl, rest⟩ := prints_name printed
      obtain ⟨left, r, rfl, opening, rest⟩ := prints_fixed rest
      obtain ⟨l, r, rfl, inner, rest⟩ := prints_append.mp rest
      obtain ⟨right, rfl, closing⟩ := prints_last rest
      by_cases none : arguments = []
      · subst none
        obtain rfl := prints_nil.mp inner
        exact ⟨.call t [], Term.spelled_primary (.callNone own opening closing), rfl⟩
      · obtain ⟨terms, spelled, values⟩ := Expr.allSpelled arguments none known inner
        exact ⟨.call t terms, Term.spelled_primary (.call own opening spelled closing),
          Term.expr?_call.mpr ⟨arguments, values, rfl⟩⟩

theorem Expr.allSpelled {ts : List Token} (es : List Expr) (filled : es ≠ [])
    (known : ∀ id ∈ Expr.idsOf es, frame.lookup? (nameOf frame.locals id) = some id)
    (printed : Prints ts (commas (Expr.lexemesOf frame.locals es)))
    : ∃ terms, Term.Arguments ts terms ∧ Term.exprs? frame terms = some es := by
  match es with
  | [] => exact absurd rfl filled
  | [e] =>
      obtain ⟨known₁, -⟩ := List.forall_mem_append.mp known
      rw [Expr.lexemesOf, Expr.lexemesOf, Lexeme.commas_singleton] at printed
      obtain ⟨a, spelled, value⟩ := e.spelled known₁ printed
      exact ⟨[a], .last spelled, Term.exprs?_cons.mpr ⟨e, [], value, rfl, rfl⟩⟩
  | e :: e' :: es =>
      obtain ⟨known₁, known₂⟩ := List.forall_mem_append.mp known
      rw [Expr.lexemesOf, Expr.lexemesOf, Lexeme.commas_cons_cons, ← Expr.lexemesOf] at printed
      obtain ⟨l, r, rfl, printed₁, rest⟩ := prints_append.mp printed
      obtain ⟨t, r, rfl, own, printed₂⟩ := prints_fixed rest
      obtain ⟨a, spelled, value⟩ := e.spelled known₁ printed₁
      obtain ⟨as, others, values⟩ := Expr.allSpelled (e' :: es) (by simp) known₂ printed₂
      exact ⟨a :: as, .more spelled own others,
        Term.exprs?_cons.mpr ⟨e, e' :: es, value, values, rfl⟩⟩

end

/-- The same for an expression that may be absent. -/
theorem Expr.spelled_optional (e : Option Expr)
    (known : ∀ id ∈ Expr.idsOf e.toList, frame.lookup? (nameOf frame.locals id) = some id)
    (printed : Prints ts (Expr.optionalLexemes frame.locals e))
    : ∃ term, Term.Optional ts term ∧ Term.optional? frame term = some e := by
  cases e with
  | none =>
      obtain rfl := prints_nil.mp printed
      exact ⟨none, .none, rfl⟩
  | some e =>
      simp only [Option.toList_some, Expr.idsOf, List.append_nil] at known
      obtain ⟨term, spelled, value⟩ := e.spelled known printed
      exact ⟨some term, .some spelled, Term.optional?_some.mpr ⟨e, value, rfl⟩⟩

/-- The same for a condition. -/
theorem Expr.spelled_grouped (e : Expr)
    (known : ∀ id ∈ e.ids, frame.lookup? (nameOf frame.locals id) = some id)
    (printed : Prints ts (grouped (e.lexemes frame.locals .assignment)))
    : ∃ term, Term.Grouped ts term ∧ term.expr? frame = some e := by
  obtain ⟨left, l, right, rfl, opening, inner, closing⟩ := prints_grouped printed
  obtain ⟨term, spelled, value⟩ := e.spelled known inner
  exact ⟨term, .mk opening spelled closing, value⟩

end

-----------------------------------------------------------------------------------------
-- Declarations
-----------------------------------------------------------------------------------------

section

variable {v : Variable} {ts : List Token}

/-- What is printed of the head of a declaration spells it. -/
theorem Variable.spelled_head (printed : Prints ts v.head)
    : ∃ param, Param.Spelled ts param ∧ param.name.text = v.name ∧ param.scalar = v.scalar
        ∧ param.pointers = v.stars := by
  obtain ⟨t, r, rfl, own, rest⟩ := prints_fixed printed
  obtain ⟨stars, r, rfl, same, rest⟩ := prints_append.mp rest
  obtain ⟨name, r, rfl, named, text, rest⟩ := prints_name rest
  obtain rfl := prints_nil.mp rest
  obtain ⟨count, all⟩ := List.eq_replicate_iff.mp same
  have kinds : ∀ star ∈ stars, star.kind = .star := fun star member =>
    congrArg Lexeme.kind (all _ (List.mem_map_of_mem member))
  refine ⟨⟨v.scalar, stars.length, name⟩, .mk own kinds named, text, rfl, ?_⟩
  simpa using count

/-- What is printed of the length of a variable spells it. -/
theorem Variable.spelled_length (small : v.arrayLength < 2 ^ 63) (printed : Prints ts v.length)
    : ∃ length, ArrayLength ts length ∧ length.isSome = v.isArray
        ∧ (v.arrayLength : Int) = (length.map fun token => token.value.toInt).getD 0 := by
  unfold Variable.length at printed
  split at printed
  · next array =>
      obtain ⟨left, r, rfl, opening, rest⟩ := prints_fixed printed
      obtain ⟨number, r, rfl, own, value, rest⟩ := prints_number rest
      obtain ⟨right, rfl, closing⟩ := prints_last rest
      refine ⟨some number, .some opening own closing, array.symm, ?_⟩
      simp [value, Int64.toInt_ofNat_of_lt small]
  · next single =>
      obtain rfl := prints_nil.mp printed
      have zero : v.arrayLength = 0 := by simpa [Variable.isArray] using single
      exact ⟨none, .none, by simpa using single, by simp [zero]⟩

/-- What is printed of a declaration spells it. -/
theorem Variable.spelled (small : v.arrayLength < 2 ^ 63)
    (array : 0 < v.arrayLength → 1 ≤ v.pointers) (printed : Prints ts v.lexemes)
    : ∃ param length, Phrase.Spelled ts (.declare param length) ∧ v.Follows (param, length)
        ∧ (Entry.ofDeclaration param length).Sound := by
  obtain ⟨h, r, rfl, printed₁, rest⟩ := prints_append.mp printed
  obtain ⟨n, r, rfl, printed₂, rest⟩ := prints_append.mp rest
  obtain ⟨last, rfl, closing⟩ := prints_last rest
  obtain ⟨param, head, name, scalar, pointers⟩ := spelled_head printed₁
  obtain ⟨length, own, isArray, value⟩ := spelled_length small printed₂
  refine ⟨param, length, .declare head own closing, ⟨name.symm, scalar.symm, ?_, value⟩, ?_⟩
  · rw [pointers, isArray, stars]
    split
    · next some =>
        have := array (by simpa [Variable.isArray] using some)
        omega
    · rfl
  · intro token given
    obtain rfl : length = some token := given
    have some : 0 < v.arrayLength := by simpa [Variable.isArray] using isArray.symm
    have same : (v.arrayLength : Int) = token.value.toInt := value
    omega

end

-----------------------------------------------------------------------------------------
-- Statements
-----------------------------------------------------------------------------------------

/-- The variable with the index can be declared. -/
structure Frame.CanDeclare (frame : Frame) (id : Nat) (v : Variable) : Prop where
  found : frame.locals[id]? = some v
  named : frame.lookup? v.name = some id
  small : v.arrayLength < 2 ^ 63
  array : 0 < v.arrayLength → 1 ≤ v.pointers

/-- The variable with the index is declared as it is written. -/
def DeclaredBy (locals : List Variable) (id : Nat) (d : Param × Option Token) : Prop :=
  ∃ v, locals[id]? = some v ∧ v.Follows d ∧ (Entry.ofDeclaration d.1 d.2).Sound

section

variable {frame : Frame}

mutual

/-- What is printed of a statement spells it and declares its variables. -/
theorem Stmt.spelled {ts : List Token} (s : Stmt)
    (known : ∀ id ∈ s.ids, frame.lookup? (nameOf frame.locals id) = some id)
    (declared : ∀ id ∈ s.declared, ∃ v, frame.CanDeclare id v)
    (printed : Prints ts (s.lexemes frame.locals))
    : ∃ p, Phrase.Spelled ts p ∧ p.stmt? frame = some s
        ∧ List.Forall₂ (DeclaredBy frame.locals) s.declared
            (p.leaves.filterMap Leaf.declaration?) := by
  match s with
  | .expr e =>
      obtain ⟨l, r, rfl, inner, rest⟩ := prints_append.mp printed
      obtain ⟨last, rfl, closing⟩ := prints_last rest
      obtain ⟨term, spelled, value⟩ := e.spelled known inner
      exact ⟨.expr term, .expr spelled closing, Phrase.stmt?_expr.mpr ⟨e, value, rfl⟩, .nil⟩
  | .ret e =>
      obtain ⟨t, r, rfl, own, rest⟩ := prints_fixed printed
      obtain ⟨l, r, rfl, inner, rest⟩ := prints_append.mp rest
      obtain ⟨last, rfl, closing⟩ := prints_last rest
      obtain ⟨term, spelled, value⟩ := e.spelled known inner
      exact ⟨.ret term, .ret own spelled closing, Phrase.stmt?_ret.mpr ⟨e, value, rfl⟩, .nil⟩
  | .block body =>
      obtain ⟨left, r, rfl, opening, rest⟩ := prints_fixed printed
      obtain ⟨l, r, rfl, inner, rest⟩ := prints_append.mp rest
      obtain ⟨right, rfl, closing⟩ := prints_last rest
      obtain ⟨ps, spelled, values, all⟩ := Stmt.allSpelled body known declared inner
      exact ⟨.block ps, .block opening spelled closing,
        Phrase.stmt?_block.mpr ⟨body, values, rfl⟩, all⟩
  | .branch e yes none =>
      obtain ⟨known₁, known₂⟩ := List.forall_mem_append.mp known
      obtain ⟨t, r, rfl, own, rest⟩ := prints_fixed printed
      obtain ⟨c, r, rfl, condition, rest⟩ := prints_append.mp rest
      obtain ⟨term, group, value₁⟩ := e.spelled_grouped known₁ condition
      obtain ⟨p, spelled, value₂, all⟩ := yes.spelled known₂ declared rest
      exact ⟨.branch term p none, .branch own group spelled,
        Phrase.stmt?_branch.mpr ⟨e, yes, value₁, value₂, rfl⟩, all⟩
  | .branch e yes (some no) =>
      obtain ⟨known₁, known⟩ := List.forall_mem_append.mp known
      obtain ⟨known₂, known₃⟩ := List.forall_mem_append.mp known
      obtain ⟨declared₁, declared₂⟩ := List.forall_mem_append.mp declared
      obtain ⟨t, r, rfl, own, rest⟩ := prints_fixed printed
      obtain ⟨c, r, rfl, condition, rest⟩ := prints_append.mp rest
      obtain ⟨l, r, rfl, printed₁, rest⟩ := prints_append.mp rest
      obtain ⟨other, r, rfl, between, printed₂⟩ := prints_fixed rest
      obtain ⟨term, group, value₁⟩ := e.spelled_grouped known₁ condition
      obtain ⟨p, spelled₁, value₂, all₁⟩ := yes.spelled known₂ declared₁ printed₁
      obtain ⟨q, spelled₂, value₃, all₂⟩ := no.spelled known₃ declared₂ printed₂
      refine ⟨.branch term p (some q), .branchElse own group spelled₁ between spelled₂,
        Phrase.stmt?_branchElse.mpr ⟨e, yes, no, value₁, value₂, value₃, rfl⟩, ?_⟩
      rw [Phrase.leaves, List.filterMap_cons, List.filterMap_append]
      exact List.rel_append all₁ all₂
  | .whileLoop e body =>
      obtain ⟨known₁, known₂⟩ := List.forall_mem_append.mp known
      obtain ⟨t, r, rfl, own, rest⟩ := prints_fixed printed
      obtain ⟨c, r, rfl, condition, rest⟩ := prints_append.mp rest
      obtain ⟨term, group, value₁⟩ := e.spelled_grouped known₁ condition
      obtain ⟨p, spelled, value₂, all⟩ := body.spelled known₂ declared rest
      exact ⟨.whileLoop term p, .whileLoop own group spelled,
        Phrase.stmt?_whileLoop.mpr ⟨e, body, value₁, value₂, rfl⟩, all⟩
  | .forLoop start condition step body =>
      simp only [Stmt.ids, Expr.idsOf_append, List.forall_mem_append] at known
      obtain ⟨⟨⟨known₁, known₂⟩, known₃⟩, known₄⟩ := known
      obtain ⟨t, r, rfl, own, rest⟩ := prints_fixed printed
      obtain ⟨left, r, rfl, opening, rest⟩ := prints_fixed rest
      obtain ⟨a, r, rfl, printed₁, rest⟩ := prints_append.mp rest
      obtain ⟨first, r, rfl, firstEnd, rest⟩ := prints_fixed rest
      obtain ⟨b, r, rfl, printed₂, rest⟩ := prints_append.mp rest
      obtain ⟨second, r, rfl, secondEnd, rest⟩ := prints_fixed rest
      obtain ⟨c, r, rfl, printed₃, rest⟩ := prints_append.mp rest
      obtain ⟨right, r, rfl, closing, rest⟩ := prints_fixed rest
      obtain ⟨term₁, spelled₁, value₁⟩ := Expr.spelled_optional start known₁ printed₁
      obtain ⟨term₂, spelled₂, value₂⟩ := Expr.spelled_optional condition known₂ printed₂
      obtain ⟨term₃, spelled₃, value₃⟩ := Expr.spelled_optional step known₃ printed₃
      obtain ⟨p, spelled, value, all⟩ := body.spelled known₄ declared rest
      refine ⟨.forLoop term₁ term₂ term₃ p,
        .forLoop own opening spelled₁ firstEnd spelled₂ secondEnd spelled₃ closing spelled,
        Phrase.stmt?_forLoop.mpr ⟨_, _, _, body, value₁, value₂, value₃, value, rfl⟩, ?_⟩
      have none : (((term₁.toList ++ term₂.toList ++ term₃.toList).map .term).filterMap
          Leaf.declaration?) = [] := by
        simp [Leaf.declaration?]
      rw [Phrase.leaves, List.filterMap_append, none]
      exact all
  | .declare id =>
      obtain ⟨v, found, named, small, array⟩ := declared id List.mem_cons_self
      simp only [Stmt.lexemes, found, Option.map_some, Option.getD_some] at printed
      obtain ⟨param, length, spelled, follows, sound⟩ := Variable.spelled small array printed
      refine ⟨.declare param length, spelled, Phrase.stmt?_declare.mpr ⟨id, ?_, rfl⟩,
        .cons ⟨v, found, follows, sound⟩ .nil⟩
      rw [← follows.name]
      exact named

/-- The same for statements one after the other. -/
theorem Stmt.allSpelled {ts : List Token} (ss : List Stmt)
    (known : ∀ id ∈ Stmt.idsOf ss, frame.lookup? (nameOf frame.locals id) = some id)
    (declared : ∀ id ∈ Stmt.declaredIn ss, ∃ v, frame.CanDeclare id v)
    (printed : Prints ts (Stmt.lexemesOf frame.locals ss))
    : ∃ ps, Phrase.AllSpelled ts ps ∧ Phrase.stmts? frame ps = some ss
        ∧ List.Forall₂ (DeclaredBy frame.locals) (Stmt.declaredIn ss)
            ((Phrase.leavesOf ps).filterMap Leaf.declaration?) := by
  match ss with
  | [] =>
      obtain rfl := prints_nil.mp printed
      exact ⟨[], .nil, rfl, .nil⟩
  | s :: ss =>
      obtain ⟨known₁, known₂⟩ := List.forall_mem_append.mp known
      obtain ⟨declared₁, declared₂⟩ := List.forall_mem_append.mp declared
      obtain ⟨l, r, rfl, printed₁, printed₂⟩ := prints_append.mp printed
      obtain ⟨p, spelled₁, value₁, all₁⟩ := s.spelled known₁ declared₁ printed₁
      obtain ⟨ps, spelled₂, value₂, all₂⟩ := Stmt.allSpelled ss known₂ declared₂ printed₂
      refine ⟨p :: ps, .cons spelled₁ spelled₂,
        Phrase.stmts?_cons.mpr ⟨s, ss, value₁, value₂, rfl⟩, ?_⟩
      rw [Phrase.leavesOf, List.filterMap_append]
      exact List.rel_append all₁ all₂

end

end

end SlotC
