import SlotC.Proofs.Grammar.Regular
import SlotC.Proofs.Source.Lexeme

/-! Printing programs. Operands are put in parentheses only where they bind looser than their
place requires. What is printed of a function whose names are names can be scanned.
-/

namespace SlotC

-----------------------------------------------------------------------------------------
-- Source texts
-----------------------------------------------------------------------------------------

/-- The token of an operation. -/
def BinaryOp.kind : BinaryOp → Kind
  | .add => .plus
  | .subtract => .minus
  | .multiply => .star
  | .divide => .slash
  | .equal => .equal
  | .notEqual => .notEqual
  | .less => .less
  | .lessEqual => .lessEqual

namespace Lexeme

/-- Lexemes in parentheses. -/
def grouped (ls : List Lexeme) : List Lexeme :=
  fixed .openParen :: (ls ++ [fixed .closeParen])

/-- An operand whose operators are of layer `own`, in parentheses if they bind looser than
those of layer `place`.
-/
def operand (own place : Layer) (ls : List Lexeme) : List Lexeme :=
  if own.least < place.least then grouped ls else ls

/-- Parts with commas between them. -/
def commas (parts : List (List Lexeme)) : List Lexeme :=
  [fixed .comma].intercalate parts

theorem commas_singleton (ls : List Lexeme) : commas [ls] = ls :=
  List.intercalate_singleton

theorem commas_cons_cons (ls ls' : List Lexeme) (parts : List (List Lexeme))
    : commas (ls :: ls' :: parts) = ls ++ fixed .comma :: commas (ls' :: parts) := by
  rw [commas, List.intercalate_cons_cons, List.append_assoc]
  rfl

end Lexeme

open Lexeme (fixed grouped operand commas)

/-- The name of the variable with the given index. -/
def nameOf (locals : List Variable) (id : Nat) : String :=
  ((locals[id]?).map Variable.name).getD ""

mutual

/-- An expression in the place of an operand of the given layer. -/
def Expr.lexemes (locals : List Variable) (place : Layer) : Expr → List Lexeme
  | .constant value => [.number value]
  | .var id => [.name (nameOf locals id)]
  | .binary op left right =>
    operand op.layer place (left.lexemes locals op.layer
      ++ fixed op.kind :: right.lexemes locals op.layer.tighter)
  | .assign target value =>
    operand .assignment place (target.lexemes locals .equality
      ++ fixed .assign :: value.lexemes locals .assignment)
  | .addressOf e => fixed .ampersand :: e.lexemes locals .unary
  | .deref e => fixed .star :: e.lexemes locals .unary
  | .call name arguments =>
    .name name :: fixed .openParen
      :: (commas (Expr.lexemesOf locals arguments) ++ [fixed .closeParen])

/-- Expressions, each of them with any operator. -/
def Expr.lexemesOf (locals : List Variable) : List Expr → List (List Lexeme)
  | [] => []
  | e :: es => e.lexemes locals .assignment :: Expr.lexemesOf locals es

end

/-- An expression that may be absent. -/
def Expr.optionalLexemes (locals : List Variable) (e : Option Expr) : List Lexeme :=
  (e.map (Expr.lexemes locals .assignment)).getD []

namespace Variable

/-- The stars in the declaration of a variable: an array counts as one. -/
def stars (v : Variable) : Nat :=
  if v.isArray then v.pointers - 1 else v.pointers

/-- The type, the stars and the name of a variable. -/
def head (v : Variable) : List Lexeme :=
  fixed (.type v.scalar) :: (List.replicate v.stars (fixed .star) ++ [.name v.name])

/-- The length of an array in brackets. -/
def length (v : Variable) : List Lexeme :=
  if v.isArray then
    [fixed .openBracket, .number (.ofNat v.arrayLength), fixed .closeBracket]
  else []

/-- The declaration of a variable. -/
def lexemes (v : Variable) : List Lexeme :=
  v.head ++ (v.length ++ [fixed .semicolon])

end Variable

mutual

/-- A statement. -/
def Stmt.lexemes (locals : List Variable) : Stmt → List Lexeme
  | .expr e => e.lexemes locals .assignment ++ [fixed .semicolon]
  | .block body => fixed .openBrace :: (Stmt.lexemesOf locals body ++ [fixed .closeBrace])
  | .branch condition whenTrue none =>
    fixed .ifWord :: (grouped (condition.lexemes locals .assignment)
      ++ whenTrue.lexemes locals)
  | .branch condition whenTrue (some whenFalse) =>
    fixed .ifWord :: (grouped (condition.lexemes locals .assignment)
      ++ (whenTrue.lexemes locals ++ fixed .elseWord :: whenFalse.lexemes locals))
  | .whileLoop condition body =>
    fixed .whileWord :: (grouped (condition.lexemes locals .assignment)
      ++ body.lexemes locals)
  | .forLoop start condition step body =>
    fixed .forWord :: fixed .openParen :: (Expr.optionalLexemes locals start
      ++ fixed .semicolon :: (Expr.optionalLexemes locals condition
        ++ fixed .semicolon :: (Expr.optionalLexemes locals step
          ++ fixed .closeParen :: body.lexemes locals)))
  | .ret e => fixed .returnWord :: (e.lexemes locals .assignment ++ [fixed .semicolon])
  | .declare id => ((locals[id]?).map Variable.lexemes).getD []

/-- Statements one after the other. -/
def Stmt.lexemesOf (locals : List Variable) : List Stmt → List Lexeme
  | [] => []
  | s :: ss => s.lexemes locals ++ Stmt.lexemesOf locals ss

end

/-- A function. -/
def Function.lexemes (f : Function) : List Lexeme :=
  fixed (.type .int) :: .name f.name :: fixed .openParen
    :: (commas ((f.locals.take f.paramCount).map Variable.head) ++ fixed .closeParen
      :: fixed .openBrace :: (Stmt.lexemesOf f.locals f.body ++ [fixed .closeBrace]))

namespace Program

/-- The functions of a program. -/
def lexemes (program : Program) : List Lexeme :=
  program.functions.flatMap Function.lexemes

/-- The source text of a program. -/
def source (program : Program) : String :=
  Lexeme.source program.lexemes

end Program

-----------------------------------------------------------------------------------------
-- Well-formed programs
-----------------------------------------------------------------------------------------

mutual

/-- The functions that an expression calls. -/
def Expr.callees : Expr → List String
  | .constant _ | .var _ => []
  | .binary _ left right => left.callees ++ right.callees
  | .assign target value => target.callees ++ value.callees
  | .addressOf operand | .deref operand => operand.callees
  | .call name arguments => name :: Expr.calleesOf arguments

/-- The functions that expressions call. -/
def Expr.calleesOf : List Expr → List String
  | [] => []
  | e :: es => e.callees ++ Expr.calleesOf es

end

mutual

/-- The functions that a statement calls. -/
def Stmt.callees : Stmt → List String
  | .expr value | .ret value => value.callees
  | .block body => Stmt.calleesOf body
  | .branch condition whenTrue none => condition.callees ++ whenTrue.callees
  | .branch condition whenTrue (some whenFalse) =>
    condition.callees ++ (whenTrue.callees ++ whenFalse.callees)
  | .whileLoop condition body => condition.callees ++ body.callees
  | .forLoop start condition step body =>
    Expr.calleesOf (start.toList ++ condition.toList ++ step.toList) ++ body.callees
  | .declare _ => []

/-- The functions that statements call. -/
def Stmt.calleesOf : List Stmt → List String
  | [] => []
  | s :: ss => s.callees ++ Stmt.calleesOf ss

end

/-- The function is regular and has names that can be written. -/
structure Function.WellFormed (f : Function) : Prop extends f.Regular where
  name : IsName f.name
  locals : ∀ v ∈ f.locals, IsName v.name
  callees : ∀ name ∈ Stmt.calleesOf f.body, IsName name

/-- All functions of the program are well formed. -/
def Program.WellFormed (program : Program) : Prop :=
  ∀ f ∈ program.functions, f.WellFormed

-----------------------------------------------------------------------------------------
-- What is printed can be scanned
-----------------------------------------------------------------------------------------

/-- All lexemes can stand in a source text. -/
def Lexeme.AllLexical (ls : List Lexeme) : Prop :=
  ∀ l ∈ ls, l.Lexical

namespace Lexeme.AllLexical

variable {l : Lexeme} {ls ls' : List Lexeme}

theorem nil : AllLexical [] := by
  simp [AllLexical]

theorem cons (first : l.Lexical) (others : AllLexical ls) : AllLexical (l :: ls) :=
  List.forall_mem_cons.mpr ⟨first, others⟩

theorem append (first : AllLexical ls) (second : AllLexical ls') : AllLexical (ls ++ ls') :=
  List.forall_mem_append.mpr ⟨first, second⟩

/-- Something that is written in one way only, before others. -/
theorem after (others : AllLexical ls) (kind : Kind) (noName : kind ≠ .identifier := by nofun)
    (noNumber : kind ≠ .constant := by nofun)
    : AllLexical (fixed kind :: ls) :=
  cons (.fixed noName noNumber) others

theorem grouped (inner : AllLexical ls) : AllLexical (Lexeme.grouped ls) :=
  (inner.append (nil.after .closeParen)).after .openParen

theorem operand {own place : Layer} (inner : AllLexical ls)
    : AllLexical (Lexeme.operand own place ls) := by
  unfold Lexeme.operand
  split
  · exact inner.grouped
  · exact inner

theorem commas {parts : List (List Lexeme)} (all : ∀ ls ∈ parts, AllLexical ls)
    : AllLexical (Lexeme.commas parts) := by
  induction parts with
  | nil => exact nil
  | cons ls parts ih =>
      obtain ⟨own, others⟩ := List.forall_mem_cons.mp all
      cases parts with
      | nil =>
          rw [commas_singleton]
          exact own
      | cons ls' parts =>
          rw [commas_cons_cons]
          exact own.append ((ih others).after .comma)

end Lexeme.AllLexical

open Lexeme (AllLexical)

theorem Variable.allLexical_head {v : Variable} (named : IsName v.name) : AllLexical v.head := by
  have stars : AllLexical (List.replicate v.stars (fixed .star)) := by
    intro l member
    rw [List.eq_of_mem_replicate member]
    exact .fixed nofun nofun
  exact (stars.append (.cons (.name named) .nil)).after (.type v.scalar)

theorem Variable.allLexical_lexemes {v : Variable} (named : IsName v.name)
    : AllLexical v.lexemes := by
  have length : AllLexical v.length := by
    unfold Variable.length
    split
    · exact AllLexical.after (.cons .number (AllLexical.nil.after .closeBracket)) .openBracket
    · exact .nil
  exact (allLexical_head named).append (length.append (AllLexical.nil.after .semicolon))

section

variable {locals : List Variable}

theorem isName_nameOf (named : ∀ v ∈ locals, IsName v.name) {id : Nat}
    (inside : id < locals.length)
    : IsName (nameOf locals id) := by
  simp only [nameOf, List.getElem?_eq_getElem inside, Option.map_some, Option.getD_some]
  exact named _ (List.getElem_mem inside)

mutual

theorem Expr.allLexical (named : ∀ v ∈ locals, IsName v.name) {place : Layer} (e : Expr)
    (known : ∀ id ∈ e.ids, id < locals.length) (callees : ∀ name ∈ e.callees, IsName name)
    : AllLexical (e.lexemes locals place) := by
  match e with
  | .constant value => exact .cons .number .nil
  | .var id => exact .cons (.name (isName_nameOf named (known id List.mem_cons_self))) .nil
  | .binary op left right =>
      obtain ⟨known₁, known₂⟩ := List.forall_mem_append.mp known
      obtain ⟨callees₁, callees₂⟩ := List.forall_mem_append.mp callees
      have sign : (fixed op.kind).Lexical := by cases op <;> exact .fixed nofun nofun
      exact ((left.allLexical named known₁ callees₁).append
        (.cons sign (right.allLexical named known₂ callees₂))).operand
  | .assign target value =>
      obtain ⟨known₁, known₂⟩ := List.forall_mem_append.mp known
      obtain ⟨callees₁, callees₂⟩ := List.forall_mem_append.mp callees
      exact ((target.allLexical named known₁ callees₁).append
        ((value.allLexical named known₂ callees₂).after .assign)).operand
  | .addressOf e => exact (e.allLexical named known callees).after .ampersand
  | .deref e => exact (e.allLexical named known callees).after .star
  | .call name arguments =>
      obtain ⟨own, callees⟩ := List.forall_mem_cons.mp callees
      have inner := AllLexical.commas (Expr.allLexical_of named arguments known callees)
      exact .cons (.name own) ((inner.append (AllLexical.nil.after .closeParen)).after .openParen)

theorem Expr.allLexical_of (named : ∀ v ∈ locals, IsName v.name) (es : List Expr)
    (known : ∀ id ∈ Expr.idsOf es, id < locals.length)
    (callees : ∀ name ∈ Expr.calleesOf es, IsName name)
    : ∀ ls ∈ Expr.lexemesOf locals es, AllLexical ls := by
  match es with
  | [] => simp [Expr.lexemesOf]
  | e :: es =>
      obtain ⟨known₁, known₂⟩ := List.forall_mem_append.mp known
      obtain ⟨callees₁, callees₂⟩ := List.forall_mem_append.mp callees
      exact List.forall_mem_cons.mpr
        ⟨e.allLexical named known₁ callees₁, Expr.allLexical_of named es known₂ callees₂⟩

end

theorem Expr.calleesOf_append (es es' : List Expr)
    : Expr.calleesOf (es ++ es') = Expr.calleesOf es ++ Expr.calleesOf es' := by
  induction es with
  | nil => rfl
  | cons e es ih => rw [List.cons_append, Expr.calleesOf, ih, Expr.calleesOf, List.append_assoc]

theorem Expr.allLexical_optional (named : ∀ v ∈ locals, IsName v.name) (e : Option Expr)
    (known : ∀ id ∈ Expr.idsOf e.toList, id < locals.length)
    (callees : ∀ name ∈ Expr.calleesOf e.toList, IsName name)
    : AllLexical (Expr.optionalLexemes locals e) := by
  cases e with
  | none => exact .nil
  | some e =>
      simp only [Option.toList_some, Expr.idsOf, Expr.calleesOf, List.append_nil] at known callees
      exact e.allLexical named known callees

mutual

theorem Stmt.allLexical (named : ∀ v ∈ locals, IsName v.name) (s : Stmt)
    (known : ∀ id ∈ s.ids, id < locals.length) (callees : ∀ name ∈ s.callees, IsName name)
    : AllLexical (s.lexemes locals) := by
  match s with
  | .expr e => exact (e.allLexical named known callees).append (AllLexical.nil.after .semicolon)
  | .ret e =>
      exact ((e.allLexical named known callees).append (AllLexical.nil.after .semicolon)).after
        .returnWord
  | .block body =>
      exact ((Stmt.allLexical_of named body known callees).append
        (AllLexical.nil.after .closeBrace)).after .openBrace
  | .branch condition whenTrue none =>
      obtain ⟨known₁, known₂⟩ := List.forall_mem_append.mp known
      obtain ⟨callees₁, callees₂⟩ := List.forall_mem_append.mp callees
      exact ((condition.allLexical named known₁ callees₁).grouped.append
        (whenTrue.allLexical named known₂ callees₂)).after .ifWord
  | .branch condition whenTrue (some whenFalse) =>
      obtain ⟨known₁, known⟩ := List.forall_mem_append.mp known
      obtain ⟨callees₁, callees⟩ := List.forall_mem_append.mp callees
      obtain ⟨known₂, known₃⟩ := List.forall_mem_append.mp known
      obtain ⟨callees₂, callees₃⟩ := List.forall_mem_append.mp callees
      exact ((condition.allLexical named known₁ callees₁).grouped.append
        ((whenTrue.allLexical named known₂ callees₂).append
          ((whenFalse.allLexical named known₃ callees₃).after .elseWord))).after .ifWord
  | .whileLoop condition body =>
      obtain ⟨known₁, known₂⟩ := List.forall_mem_append.mp known
      obtain ⟨callees₁, callees₂⟩ := List.forall_mem_append.mp callees
      exact ((condition.allLexical named known₁ callees₁).grouped.append
        (body.allLexical named known₂ callees₂)).after .whileWord
  | .forLoop start condition step body =>
      simp only [Stmt.ids, Expr.idsOf_append, List.forall_mem_append] at known
      simp only [Stmt.callees, Expr.calleesOf_append, List.forall_mem_append] at callees
      obtain ⟨⟨⟨known₁, known₂⟩, known₃⟩, known₄⟩ := known
      obtain ⟨⟨⟨callees₁, callees₂⟩, callees₃⟩, callees₄⟩ := callees
      have third := (Expr.allLexical_optional named step known₃ callees₃).append
        ((body.allLexical named known₄ callees₄).after .closeParen)
      have second := (Expr.allLexical_optional named condition known₂ callees₂).append
        (third.after .semicolon)
      have first := (Expr.allLexical_optional named start known₁ callees₁).append
        (second.after .semicolon)
      exact (first.after .openParen).after .forWord
  | .declare id =>
      cases found : locals[id]? with
      | none =>
          simp only [Stmt.lexemes, found]
          exact .nil
      | some v =>
          simp only [Stmt.lexemes, found]
          exact Variable.allLexical_lexemes (named v (List.mem_of_getElem? found))

theorem Stmt.allLexical_of (named : ∀ v ∈ locals, IsName v.name) (ss : List Stmt)
    (known : ∀ id ∈ Stmt.idsOf ss, id < locals.length)
    (callees : ∀ name ∈ Stmt.calleesOf ss, IsName name)
    : AllLexical (Stmt.lexemesOf locals ss) := by
  match ss with
  | [] => exact .nil
  | s :: ss =>
      obtain ⟨known₁, known₂⟩ := List.forall_mem_append.mp known
      obtain ⟨callees₁, callees₂⟩ := List.forall_mem_append.mp callees
      exact (s.allLexical named known₁ callees₁).append
        (Stmt.allLexical_of named ss known₂ callees₂)

end

end

/-- What is printed of a well-formed function can be scanned. -/
theorem Function.allLexical {f : Function} (formed : f.WellFormed) : AllLexical f.lexemes := by
  have params : ∀ ls ∈ (f.locals.take f.paramCount).map Variable.head, AllLexical ls := by
    intro ls member
    obtain ⟨v, given, rfl⟩ := List.mem_map.mp member
    exact Variable.allLexical_head (formed.locals v (List.mem_of_mem_take given))
  have body := Stmt.allLexical_of formed.locals f.body formed.known formed.callees
  have rest := ((body.append (AllLexical.nil.after .closeBrace)).after .openBrace).after .closeParen
  have head := ((AllLexical.commas params).append rest).after .openParen
  exact AllLexical.after (.cons (.name formed.name) head) (.type .int)

/-- What is printed of a well-formed program can be scanned. -/
theorem Program.allLexical {program : Program} (formed : program.WellFormed)
    : AllLexical program.lexemes := by
  intro l member
  obtain ⟨f, inside, own⟩ := List.mem_flatMap.mp member
  exact Function.allLexical (formed f inside) l own

end SlotC
