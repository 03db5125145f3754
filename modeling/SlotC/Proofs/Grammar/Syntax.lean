import SlotC.Grammar.Operator
import SlotC.Proofs.Frame.Layout

/-! The grammar of programs. Phrases are trees of what is written, before names are looked
up, and for every kind of phrase there is a relation between the tokens and the trees that
they spell.
-/

namespace SlotC

-----------------------------------------------------------------------------------------
-- Expressions
-----------------------------------------------------------------------------------------

/-- What may stand in front of an operand. -/
inductive Sign where
  | plus
  | minus
  | address
  | content
deriving DecidableEq, Repr

/-- The token that stands for the sign. -/
def Sign.kind : Sign → Kind
  | .plus => .plus
  | .minus => .minus
  | .address => .ampersand
  | .content => .star

/-- An expression as it is written. -/
inductive Term where
  | number (t : Token)
  | name (t : Token)
  | element (t : Token) (index : Term)
  | call (t : Token) (arguments : List Term)
  | signed (sign : Sign) (operand : Term)
  | size (operand : Term)
  | joined (operator : Operator) (left right : Term)
deriving Repr

namespace Term

/-- The variable that the term itself names. -/
def named? : Term → Option Token
  | .name t | .element t _ => some t
  | _ => none

/-- Whether the term stands for a variable or a number. -/
def isSized : Term → Bool
  | .number _ | .name _ | .size _ => true
  | .signed .plus operand => operand.isSized
  | _ => false

mutual

/-- The term and all terms inside it. -/
def subterms : Term → List Term
  | .number t => [.number t]
  | .name t => [.name t]
  | .element t index => .element t index :: index.subterms
  | .call t arguments => .call t arguments :: subtermsOf arguments
  | .signed sign operand => .signed sign operand :: operand.subterms
  | .size operand => .size operand :: operand.subterms
  | .joined operator left right => .joined operator left right :: (left.subterms ++ right.subterms)

/-- The terms and all terms inside them. -/
def subtermsOf : List Term → List Term
  | [] => []
  | e :: es => e.subterms ++ subtermsOf es

end

end Term

/-- The layers of expressions, from the loosest operator to the operands. -/
inductive Layer where
  | assignment
  | equality
  | relational
  | additive
  | multiplicative
  | unary
deriving DecidableEq, Repr

namespace Layer

/-- The layer of the operands. -/
def tighter : Layer → Layer
  | .assignment => .equality
  | .equality => .relational
  | .relational => .additive
  | .additive => .multiplicative
  | .multiplicative | .unary => .unary

/-- The operators that are chained from left to right, each with its token. -/
def operators : Layer → List (Kind × Operator)
  | .equality => [(.equal, .direct .equal), (.notEqual, .direct .notEqual)]
  | .relational =>
    [(.less, .direct .less), (.lessEqual, .direct .lessEqual), (.greater, .flipped .less),
      (.greaterEqual, .flipped .lessEqual)]
  | .additive => [(.plus, .direct .add), (.minus, .direct .subtract)]
  | .multiplicative => [(.star, .direct .multiply), (.slash, .direct .divide)]
  | .assignment | .unary => []

end Layer

namespace Term

mutual

/-- The tokens spell a term of the layer. -/
inductive Spelled : Layer → List Token → Term → Prop where
  | operand {ts : List Token} {e : Term} (unary : Unary ts e) : Spelled .unary ts e
  | tighter {layer : Layer} {ts : List Token} {e : Term} (inner : Spelled layer.tighter ts e)
      : Spelled layer ts e
  | chain {layer : Layer} {l r : List Token} {t : Token} {o : Operator} {a b : Term}
      (left : Spelled layer l a) (own : (t.kind, o) ∈ layer.operators)
      (right : Spelled layer.tighter r b)
      : Spelled layer (l ++ t :: r) (.joined o a b)
  | assign {l r : List Token} {t : Token} {a b : Term} (left : Spelled .equality l a)
      (own : t.kind = .assign) (right : Spelled .assignment r b)
      : Spelled .assignment (l ++ t :: r) (.joined .assign a b)

/-- The tokens spell an operand with the signs in front of it. -/
inductive Unary : List Token → Term → Prop where
  | primary {ts : List Token} {e : Term} (inner : Primary ts e) : Unary ts e
  | signed {ts : List Token} {e : Term} {t : Token} {sign : Sign} (own : t.kind = sign.kind)
      (operand : Unary ts e)
      : Unary (t :: ts) (.signed sign e)
  | size {ts : List Token} {e : Term} {t : Token} (own : t.kind = .sizeofWord)
      (operand : Unary ts e)
      : Unary (t :: ts) (.size e)

/-- The tokens spell an operand. -/
inductive Primary : List Token → Term → Prop where
  | number {t : Token} (own : t.kind = .constant) : Primary [t] (.number t)
  | name {t : Token} (own : t.kind = .identifier) : Primary [t] (.name t)
  | element {ts : List Token} {e : Term} {t left right : Token} (own : t.kind = .identifier)
      (opening : left.kind = .openBracket) (index : Spelled .assignment ts e)
      (closing : right.kind = .closeBracket)
      : Primary (t :: left :: (ts ++ [right])) (.element t e)
  | callNone {t left right : Token} (own : t.kind = .identifier)
      (opening : left.kind = .openParen) (closing : right.kind = .closeParen)
      : Primary [t, left, right] (.call t [])
  | call {ts : List Token} {es : List Term} {t left right : Token} (own : t.kind = .identifier)
      (opening : left.kind = .openParen) (arguments : Arguments ts es)
      (closing : right.kind = .closeParen)
      : Primary (t :: left :: (ts ++ [right])) (.call t es)
  | group {ts : List Token} {e : Term} {left right : Token} (opening : left.kind = .openParen)
      (inner : Spelled .assignment ts e) (closing : right.kind = .closeParen)
      : Primary (left :: (ts ++ [right])) e

/-- The tokens spell arguments, one at least, with commas between them. -/
inductive Arguments : List Token → List Term → Prop where
  | last {ts : List Token} {e : Term} (argument : Spelled .assignment ts e) : Arguments ts [e]
  | more {l r : List Token} {e : Term} {es : List Term} {t : Token}
      (argument : Spelled .assignment l e) (own : t.kind = .comma) (others : Arguments r es)
      : Arguments (l ++ t :: r) (e :: es)

end

/-- The tokens spell a term in parentheses. -/
inductive Grouped : List Token → Term → Prop where
  | mk {ts : List Token} {e : Term} {left right : Token} (opening : left.kind = .openParen)
      (inner : Spelled .assignment ts e) (closing : right.kind = .closeParen)
      : Grouped (left :: (ts ++ [right])) e

/-- The tokens spell a term or there are none. -/
inductive Optional : List Token → Option Term → Prop where
  | none : Optional [] none
  | some {ts : List Token} {e : Term} (spelled : Spelled .assignment ts e) : Optional ts (some e)

end Term

-----------------------------------------------------------------------------------------
-- Statements
-----------------------------------------------------------------------------------------

/-- A statement as it is written. -/
inductive Phrase where
  | expr (e : Term)
  | block (body : List Phrase)
  | branch (condition : Term) (whenTrue : Phrase) (whenFalse : Option Phrase)
  | whileLoop (condition : Term) (body : Phrase)
  | forLoop (start condition step : Option Term) (body : Phrase)
  | ret (e : Term)
  | declare (param : Param) (length : Option Token)
deriving Repr

/-- A variable that is declared in a body, with the length of an array if it is one. An array
counts as one more star.
-/
def Entry.ofDeclaration (param : Param) (length : Option Token) : Entry :=
  ⟨param.scalar, ⟨param.name, param.pointers + (if length.isSome then 1 else 0), length⟩, none⟩

/-- A part of a statement that names variables. -/
inductive Leaf where
  | term (e : Term)
  | declared (param : Param) (length : Option Token)
deriving Repr

namespace Leaf

/-- The variable that is declared. -/
def entry? : Leaf → Option Entry
  | .term _ => none
  | .declared param length => some (.ofDeclaration param length)

/-- The expression and all expressions inside it. -/
def terms : Leaf → List Term
  | .term e => e.subterms
  | .declared _ _ => []

end Leaf

namespace Phrase

mutual

/-- The expressions and declarations of a statement, in order. -/
def leaves : Phrase → List Leaf
  | .expr e | .ret e => [.term e]
  | .block body => leavesOf body
  | .branch condition whenTrue none => .term condition :: whenTrue.leaves
  | .branch condition whenTrue (some whenFalse) =>
    .term condition :: (whenTrue.leaves ++ whenFalse.leaves)
  | .whileLoop condition body => .term condition :: body.leaves
  | .forLoop start condition step body =>
    (start.toList ++ condition.toList ++ step.toList).map .term ++ body.leaves
  | .declare param length => [.declared param length]

/-- The expressions and declarations of statements, in order. -/
def leavesOf : List Phrase → List Leaf
  | [] => []
  | p :: ps => p.leaves ++ leavesOf ps

end

end Phrase

/-- The tokens spell a type, stars and a name. -/
inductive Param.Spelled : List Token → Param → Prop where
  | mk {t name : Token} {scalar : Scalar} {stars : List Token} (own : t.kind = .type scalar)
      (pointers : ∀ star ∈ stars, star.kind = .star) (named : name.kind = .identifier)
      : Spelled (t :: (stars ++ [name])) ⟨scalar, stars.length, name⟩

/-- The tokens spell the length of an array or there are none. -/
inductive ArrayLength : List Token → Option Token → Prop where
  | none : ArrayLength [] none
  | some {left number right : Token} (opening : left.kind = .openBracket)
      (own : number.kind = .constant) (closing : right.kind = .closeBracket)
      : ArrayLength [left, number, right] (some number)

namespace Phrase

mutual

/-- The tokens spell a statement. -/
inductive Spelled : List Token → Phrase → Prop where
  | expr {ts : List Token} {e : Term} {last : Token} (value : Term.Spelled .assignment ts e)
      (closing : last.kind = .semicolon)
      : Spelled (ts ++ [last]) (.expr e)
  | block {ts : List Token} {ps : List Phrase} {left right : Token}
      (opening : left.kind = .openBrace) (body : AllSpelled ts ps)
      (closing : right.kind = .closeBrace)
      : Spelled (left :: (ts ++ [right])) (.block ps)
  | branch {c l : List Token} {e : Term} {yes : Phrase} {t : Token} (own : t.kind = .ifWord)
      (condition : Term.Grouped c e) (whenTrue : Spelled l yes)
      : Spelled (t :: (c ++ l)) (.branch e yes none)
  | branchElse {c l r : List Token} {e : Term} {yes no : Phrase} {t other : Token}
      (own : t.kind = .ifWord) (condition : Term.Grouped c e) (whenTrue : Spelled l yes)
      (between : other.kind = .elseWord) (whenFalse : Spelled r no)
      : Spelled (t :: (c ++ (l ++ other :: r))) (.branch e yes (some no))
  | whileLoop {c l : List Token} {e : Term} {p : Phrase} {t : Token}
      (own : t.kind = .whileWord) (condition : Term.Grouped c e) (body : Spelled l p)
      : Spelled (t :: (c ++ l)) (.whileLoop e p)
  | forLoop {a b c l : List Token} {start condition step : Option Term} {p : Phrase}
      {t left first second right : Token} (own : t.kind = .forWord)
      (opening : left.kind = .openParen) (starts : Term.Optional a start)
      (firstEnd : first.kind = .semicolon) (continues : Term.Optional b condition)
      (secondEnd : second.kind = .semicolon) (steps : Term.Optional c step)
      (closing : right.kind = .closeParen) (body : Spelled l p)
      : Spelled (t :: left :: (a ++ first :: (b ++ second :: (c ++ right :: l))))
          (.forLoop start condition step p)
  | ret {ts : List Token} {e : Term} {t last : Token} (own : t.kind = .returnWord)
      (value : Term.Spelled .assignment ts e) (closing : last.kind = .semicolon)
      : Spelled (t :: (ts ++ [last])) (.ret e)
  | declare {h n : List Token} {param : Param} {length : Option Token} {last : Token}
      (head : Param.Spelled h param) (array : ArrayLength n length)
      (closing : last.kind = .semicolon)
      : Spelled (h ++ (n ++ [last])) (.declare param length)

/-- The tokens spell statements, one after the other. -/
inductive AllSpelled : List Token → List Phrase → Prop where
  | nil : AllSpelled [] []
  | cons {l r : List Token} {p : Phrase} {ps : List Phrase} (first : Spelled l p)
      (others : AllSpelled r ps)
      : AllSpelled (l ++ r) (p :: ps)

end

end Phrase

-----------------------------------------------------------------------------------------
-- Functions and programs
-----------------------------------------------------------------------------------------

/-- A function as it is written. -/
structure Definition where
  head : Param
  params : List Param
  body : List Phrase
deriving Repr

/-- The tokens spell parameters, one at least, with commas between them. -/
inductive Param.AllSpelled : List Token → List Param → Prop where
  | last {ts : List Token} {param : Param} (own : Param.Spelled ts param)
      : AllSpelled ts [param]
  | more {l r : List Token} {param : Param} {params : List Param} {t : Token}
      (own : Param.Spelled l param) (between : t.kind = .comma) (others : AllSpelled r params)
      : AllSpelled (l ++ t :: r) (param :: params)

/-- The tokens spell parameters or there are none. -/
inductive Param.ListSpelled : List Token → List Param → Prop where
  | none : ListSpelled [] []
  | some {ts : List Token} {params : List Param} (all : Param.AllSpelled ts params)
      : ListSpelled ts params

namespace Definition

/-- The tokens spell a function. -/
inductive Spelled : List Token → Definition → Prop where
  | mk {h ps b : List Token} {head : Param} {params : List Param} {body : List Phrase}
      {left right first last : Token} (named : Param.Spelled h head)
      (opening : left.kind = .openParen) (given : Param.ListSpelled ps params)
      (closing : right.kind = .closeParen) (begins : first.kind = .openBrace)
      (inner : Phrase.AllSpelled b body) (ends : last.kind = .closeBrace)
      : Spelled (h ++ left :: (ps ++ right :: first :: (b ++ [last]))) ⟨head, params, body⟩

/-- The parameters of a function and the variables that its body declares, in order. -/
def entries (d : Definition) : List Entry :=
  Entry.ofParams 0 d.params ++ (Phrase.leavesOf d.body).filterMap Leaf.entry?

/-- All expressions in a function and all expressions inside them. -/
def terms (d : Definition) : List Term :=
  (Phrase.leavesOf d.body).flatMap Leaf.terms

/-- What a function has to keep to beyond its grammar. -/
structure WellFormed (d : Definition) : Prop where
  few : d.params.length ≤ 6
  distinct : (d.entries.map Entry.name).Nodup
  lengths : ∀ e ∈ d.entries, ∀ length ∈ e.declarator.length, 1 ≤ length.value.toInt
  fits : 8 * (d.entries.map fun e => e.declarator.slots).sum ≤ Frame.maxSize
  known : ∀ e ∈ d.terms, ∀ name ∈ e.named?, name.text ∈ d.entries.map Entry.name
  sized : ∀ operand, Term.size operand ∈ d.terms → operand.isSized

/-- The tokens spell functions, one after the other. -/
inductive AllSpelled : List Token → List Definition → Prop where
  | nil : AllSpelled [] []
  | cons {l r : List Token} {d : Definition} {ds : List Definition} (first : Spelled l d)
      (others : AllSpelled r ds)
      : AllSpelled (l ++ r) (d :: ds)

end Definition

end SlotC
