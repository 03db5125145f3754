import Mathlib.Data.List.Forall2
import SlotC.Proofs.Frame.Tiling
import SlotC.Proofs.Grammar.Acceptance

/-! Declarations of a function that was read. Its variables are those that its head and body
declare, in the order in which they are written, and every name in the body has become the
index of the one variable of that name.
-/

namespace SlotC

-----------------------------------------------------------------------------------------
-- Walks over a body
-----------------------------------------------------------------------------------------

mutual

/-- The variables that stand in an expression. -/
def Expr.ids : Expr → List Nat
  | .constant _ => []
  | .var id => [id]
  | .binary _ left right => left.ids ++ right.ids
  | .assign target value => target.ids ++ value.ids
  | .addressOf operand | .deref operand => operand.ids
  | .call _ arguments => Expr.idsOf arguments

/-- The variables that stand in expressions. -/
def Expr.idsOf : List Expr → List Nat
  | [] => []
  | e :: es => e.ids ++ Expr.idsOf es

end

mutual

/-- The variables that stand in the expressions of a statement. -/
def Stmt.ids : Stmt → List Nat
  | .expr value | .ret value => value.ids
  | .block body => Stmt.idsOf body
  | .branch condition whenTrue none => condition.ids ++ whenTrue.ids
  | .branch condition whenTrue (some whenFalse) =>
    condition.ids ++ (whenTrue.ids ++ whenFalse.ids)
  | .whileLoop condition body => condition.ids ++ body.ids
  | .forLoop start condition step body =>
    Expr.idsOf (start.toList ++ condition.toList ++ step.toList) ++ body.ids
  | .declare _ => []

/-- The variables that stand in the expressions of statements. -/
def Stmt.idsOf : List Stmt → List Nat
  | [] => []
  | s :: ss => s.ids ++ Stmt.idsOf ss

end

mutual

/-- The variables that a statement declares, in order. -/
def Stmt.declared : Stmt → List Nat
  | .expr _ | .ret _ => []
  | .block body => Stmt.declaredIn body
  | .branch _ whenTrue none => whenTrue.declared
  | .branch _ whenTrue (some whenFalse) => whenTrue.declared ++ whenFalse.declared
  | .whileLoop _ body | .forLoop _ _ _ body => body.declared
  | .declare id => [id]

/-- The variables that statements declare, in order. -/
def Stmt.declaredIn : List Stmt → List Nat
  | [] => []
  | s :: ss => s.declared ++ Stmt.declaredIn ss

end

/-- The declaration that a part of a statement is, if it is one. -/
def Leaf.declaration? : Leaf → Option (Param × Option Token)
  | .term _ => none
  | .declared param length => some (param, length)

/-- The declarations in the body of a function, in the order in which they are written. -/
def Definition.declarations (d : Definition) : List (Param × Option Token) :=
  (Phrase.leavesOf d.body).filterMap Leaf.declaration?

-----------------------------------------------------------------------------------------
-- Names and variables
-----------------------------------------------------------------------------------------

/-- The variable with the given index is the only one with the name that the token has. -/
def Token.Denotes (locals : List Variable) (t : Token) (id : Nat) : Prop :=
  ∀ j, (∃ v, locals[j]? = some v ∧ v.name = t.text) ↔ j = id

mutual

/-- The expression is what the term says, with variables in the place of their names. The
size of everything that has one is that of a slot.
-/
inductive Term.Denotes (locals : List Variable) : Term → Expr → Prop where
  | number {t : Token} : Denotes locals (.number t) (.constant t.value)
  | name {t : Token} {id : Nat} (own : t.Denotes locals id) : Denotes locals (.name t) (.var id)
  | element {t : Token} {id : Nat} {index : Term} {i : Expr} (own : t.Denotes locals id)
      (inner : Denotes locals index i)
      : Denotes locals (.element t index) (.deref (.binary .add (.var id) i))
  | call {t : Token} {es : List Term} {es' : List Expr} (arguments : AllDenote locals es es')
      : Denotes locals (.call t es) (.call t.text es')
  | signed {sign : Sign} {operand : Term} {e : Expr} (inner : Denotes locals operand e)
      : Denotes locals (.signed sign operand) (sign.build e)
  | size {operand : Term} {e : Expr} (inner : Denotes locals operand e)
      : Denotes locals (.size operand) (.constant (.ofNat slotSize))
  | joined {o : Operator} {a b : Term} {a' b' : Expr} (left : Denotes locals a a')
      (right : Denotes locals b b')
      : Denotes locals (.joined o a b) (o.build a' b')

/-- The same for expressions one after the other. -/
inductive Term.AllDenote (locals : List Variable) : List Term → List Expr → Prop where
  | nil : AllDenote locals [] []
  | cons {e : Term} {e' : Expr} {es : List Term} {es' : List Expr} (first : Denotes locals e e')
      (others : AllDenote locals es es')
      : AllDenote locals (e :: es) (e' :: es')

end

mutual

/-- The statement is what the phrase says, with variables in the place of their names. -/
inductive Phrase.Denotes (locals : List Variable) : Phrase → Stmt → Prop where
  | expr {e : Term} {e' : Expr} (value : e.Denotes locals e')
      : Denotes locals (.expr e) (.expr e')
  | ret {e : Term} {e' : Expr} (value : e.Denotes locals e') : Denotes locals (.ret e) (.ret e')
  | block {ps : List Phrase} {ss : List Stmt} (body : AllDenote locals ps ss)
      : Denotes locals (.block ps) (.block ss)
  | branch {e : Term} {e' : Expr} {p : Phrase} {s : Stmt} (condition : e.Denotes locals e')
      (whenTrue : Denotes locals p s)
      : Denotes locals (.branch e p none) (.branch e' s none)
  | branchElse {e : Term} {e' : Expr} {p q : Phrase} {s r : Stmt}
      (condition : e.Denotes locals e') (whenTrue : Denotes locals p s)
      (whenFalse : Denotes locals q r)
      : Denotes locals (.branch e p (some q)) (.branch e' s (some r))
  | whileLoop {e : Term} {e' : Expr} {p : Phrase} {s : Stmt} (condition : e.Denotes locals e')
      (body : Denotes locals p s)
      : Denotes locals (.whileLoop e p) (.whileLoop e' s)
  | forLoop {a b c : Option Term} {a' b' c' : Option Expr} {p : Phrase} {s : Stmt}
      (start : Option.Rel (Term.Denotes locals) a a')
      (condition : Option.Rel (Term.Denotes locals) b b')
      (step : Option.Rel (Term.Denotes locals) c c') (body : Denotes locals p s)
      : Denotes locals (.forLoop a b c p) (.forLoop a' b' c' s)
  | declare {param : Param} {length : Option Token} {id : Nat}
      (own : param.name.Denotes locals id)
      : Denotes locals (.declare param length) (.declare id)

/-- The same for statements one after the other. -/
inductive Phrase.AllDenote (locals : List Variable) : List Phrase → List Stmt → Prop where
  | nil : AllDenote locals [] []
  | cons {p : Phrase} {s : Stmt} {ps : List Phrase} {ss : List Stmt} (first : Denotes locals p s)
      (others : AllDenote locals ps ss)
      : AllDenote locals (p :: ps) (s :: ss)

end

section

variable {frame : Frame}

theorem Token.denotes_of_lookup? {t : Token} {id : Nat} (distinct : frame.names.Nodup)
    (found : frame.lookup? t.text = some id)
    : t.Denotes frame.locals id := by
  intro j
  rw [← Frame.get?, ← Frame.lookup?_eq_some distinct, found, Option.some.injEq, eq_comm]

/-- Everything that has a size takes one slot. -/
theorem Grammar.sizeOf?_eq {e : Expr} {size : Int64} (found : sizeOf? frame e = some size)
    : size = .ofNat slotSize := by
  cases e with
  | constant value =>
      cases found
      rfl
  | var id =>
      obtain ⟨v, -, rfl⟩ := Option.map_eq_some_iff.mp found
      have same : v.size = slotSize := by
        unfold Variable.size
        split <;> cases v.scalar <;> rfl
      rw [same]
  | _ => cases found

mutual

/-- What a term stands for in a frame is what it denotes. -/
theorem Term.denotes_of_expr? (distinct : frame.names.Nodup) (e : Term) {e' : Expr}
    (value : e.expr? frame = some e')
    : e.Denotes frame.locals e' := by
  match e with
  | .number t =>
      cases value
      exact .number
  | .name t =>
      obtain ⟨id, found, rfl⟩ := expr?_name.mp value
      exact .name (Token.denotes_of_lookup? distinct found)
  | .element t index =>
      obtain ⟨id, i, found, inner, rfl⟩ := expr?_element.mp value
      exact .element (Token.denotes_of_lookup? distinct found)
        (Term.denotes_of_expr? distinct index inner)
  | .call t arguments =>
      obtain ⟨es, inner, rfl⟩ := expr?_call.mp value
      exact .call (Term.allDenote_of_exprs? distinct arguments inner)
  | .signed sign operand =>
      obtain ⟨e, inner, rfl⟩ := expr?_signed.mp value
      exact .signed (Term.denotes_of_expr? distinct operand inner)
  | .size operand =>
      obtain ⟨e, size, inner, found, rfl⟩ := expr?_size.mp value
      rw [Grammar.sizeOf?_eq found]
      exact .size (Term.denotes_of_expr? distinct operand inner)
  | .joined o a b =>
      obtain ⟨a', b', left, right, rfl⟩ := expr?_joined.mp value
      exact .joined (Term.denotes_of_expr? distinct a left) (Term.denotes_of_expr? distinct b right)

theorem Term.allDenote_of_exprs? (distinct : frame.names.Nodup) (es : List Term)
    {es' : List Expr} (values : exprs? frame es = some es')
    : AllDenote frame.locals es es' := by
  match es with
  | [] =>
      cases values
      exact .nil
  | e :: es =>
      obtain ⟨e', es', value, values', rfl⟩ := exprs?_cons.mp values
      exact .cons (Term.denotes_of_expr? distinct e value)
        (Term.allDenote_of_exprs? distinct es values')

end

theorem Term.rel_of_optional? (distinct : frame.names.Nodup) (e : Option Term)
    {e' : Option Expr} (value : optional? frame e = some e')
    : Option.Rel (Denotes frame.locals) e e' := by
  cases e with
  | none =>
      cases value
      exact .none
  | some e =>
      obtain ⟨e', inner, rfl⟩ := optional?_some.mp value
      exact .some (Term.denotes_of_expr? distinct e inner)

mutual

/-- What a phrase stands for in a frame is what it denotes. -/
theorem Phrase.denotes_of_stmt? (distinct : frame.names.Nodup) (p : Phrase) {s : Stmt}
    (value : p.stmt? frame = some s)
    : p.Denotes frame.locals s := by
  match p with
  | .expr e =>
      obtain ⟨e', inner, rfl⟩ := stmt?_expr.mp value
      exact .expr (e.denotes_of_expr? distinct inner)
  | .ret e =>
      obtain ⟨e', inner, rfl⟩ := stmt?_ret.mp value
      exact .ret (e.denotes_of_expr? distinct inner)
  | .block body =>
      obtain ⟨ss, inner, rfl⟩ := stmt?_block.mp value
      exact .block (Phrase.allDenote_of_stmts? distinct body inner)
  | .branch e yes none =>
      obtain ⟨e', yes', inner, first, rfl⟩ := stmt?_branch.mp value
      exact .branch (e.denotes_of_expr? distinct inner) (yes.denotes_of_stmt? distinct first)
  | .branch e yes (some no) =>
      obtain ⟨e', yes', no', inner, first, second, rfl⟩ := stmt?_branchElse.mp value
      exact .branchElse (e.denotes_of_expr? distinct inner) (yes.denotes_of_stmt? distinct first)
        (no.denotes_of_stmt? distinct second)
  | .whileLoop e body =>
      obtain ⟨e', body', inner, first, rfl⟩ := stmt?_whileLoop.mp value
      exact .whileLoop (e.denotes_of_expr? distinct inner) (body.denotes_of_stmt? distinct first)
  | .forLoop start condition step body =>
      obtain ⟨_, _, _, body', value₁, value₂, value₃, first, rfl⟩ := stmt?_forLoop.mp value
      exact .forLoop (Term.rel_of_optional? distinct start value₁)
        (Term.rel_of_optional? distinct condition value₂)
        (Term.rel_of_optional? distinct step value₃) (body.denotes_of_stmt? distinct first)
  | .declare param length =>
      obtain ⟨id, found, rfl⟩ := stmt?_declare.mp value
      exact .declare (Token.denotes_of_lookup? distinct found)

theorem Phrase.allDenote_of_stmts? (distinct : frame.names.Nodup) (ps : List Phrase)
    {ss : List Stmt} (values : stmts? frame ps = some ss)
    : AllDenote frame.locals ps ss := by
  match ps with
  | [] =>
      cases values
      exact .nil
  | p :: ps =>
      obtain ⟨s, ss, value, values', rfl⟩ := stmts?_cons.mp values
      exact .cons (p.denotes_of_stmt? distinct value)
        (Phrase.allDenote_of_stmts? distinct ps values')

end

end

-----------------------------------------------------------------------------------------
-- Variables of a body
-----------------------------------------------------------------------------------------

theorem Sign.ids_build (sign : Sign) (e : Expr) : (sign.build e).ids = e.ids := by
  cases sign <;> simp [Sign.build, Expr.ids]

theorem Operator.mem_ids_build {o : Operator} {a b : Expr} {id : Nat}
    : id ∈ (o.build a b).ids ↔ id ∈ a.ids ∨ id ∈ b.ids := by
  cases o <;> simp [Operator.build, Expr.ids, or_comm]

section

variable {locals : List Variable}

theorem Token.Denotes.lt {t : Token} {id : Nat} (denotes : t.Denotes locals id)
    : id < locals.length := by
  obtain ⟨v, found, -⟩ := (denotes id).mpr rfl
  exact (List.getElem?_eq_some_iff.mp found).1

mutual

/-- The variables of an expression are there. -/
theorem Term.Denotes.ids_lt {e : Term} {e' : Expr} (denotes : e.Denotes locals e')
    : ∀ id ∈ e'.ids, id < locals.length := by
  match denotes with
  | .number | .size _ => simp [Expr.ids]
  | .name own => simpa [Expr.ids] using own.lt
  | .element own inner =>
      simp only [Expr.ids, List.cons_append, List.nil_append, List.forall_mem_cons]
      exact ⟨own.lt, inner.ids_lt⟩
  | .call arguments => exact arguments.ids_lt
  | @Term.Denotes.signed _ sign operand e inner =>
      rw [sign.ids_build]
      exact inner.ids_lt
  | .joined left right =>
      intro id member
      rcases Operator.mem_ids_build.mp member with first | second
      · exact left.ids_lt id first
      · exact right.ids_lt id second

theorem Term.AllDenote.ids_lt {es : List Term} {es' : List Expr}
    (denotes : Term.AllDenote locals es es')
    : ∀ id ∈ Expr.idsOf es', id < locals.length := by
  match denotes with
  | .nil => simp [Expr.idsOf]
  | .cons first others => exact List.forall_mem_append.mpr ⟨first.ids_lt, others.ids_lt⟩

end

theorem Term.ids_lt_of_rel {e : Option Term} {e' : Option Expr}
    (denotes : Option.Rel (Term.Denotes locals) e e')
    : ∀ id ∈ Expr.idsOf e'.toList, id < locals.length := by
  cases denotes with
  | none => simp [Expr.idsOf]
  | some inner => simpa [Expr.idsOf] using inner.ids_lt

theorem Expr.idsOf_append (es es' : List Expr)
    : Expr.idsOf (es ++ es') = Expr.idsOf es ++ Expr.idsOf es' := by
  induction es with
  | nil => rfl
  | cons e es ih => rw [List.cons_append, Expr.idsOf, ih, Expr.idsOf, List.append_assoc]

mutual

/-- The variables in the expressions of a statement are there. -/
theorem Phrase.Denotes.ids_lt {p : Phrase} {s : Stmt} (denotes : p.Denotes locals s)
    : ∀ id ∈ s.ids, id < locals.length := by
  match denotes with
  | .expr value | .ret value => exact value.ids_lt
  | .block body => exact body.ids_lt
  | .branch condition whenTrue =>
      exact List.forall_mem_append.mpr ⟨condition.ids_lt, whenTrue.ids_lt⟩
  | .branchElse condition whenTrue whenFalse =>
      exact List.forall_mem_append.mpr ⟨condition.ids_lt,
        List.forall_mem_append.mpr ⟨whenTrue.ids_lt, whenFalse.ids_lt⟩⟩
  | .whileLoop condition body =>
      exact List.forall_mem_append.mpr ⟨condition.ids_lt, body.ids_lt⟩
  | .forLoop start condition step body =>
      simp only [Stmt.ids, Expr.idsOf_append, List.forall_mem_append]
      exact ⟨⟨⟨Term.ids_lt_of_rel start, Term.ids_lt_of_rel condition⟩, Term.ids_lt_of_rel step⟩,
        body.ids_lt⟩
  | .declare _ => simp [Stmt.ids]

theorem Phrase.AllDenote.ids_lt {ps : List Phrase} {ss : List Stmt}
    (denotes : Phrase.AllDenote locals ps ss)
    : ∀ id ∈ Stmt.idsOf ss, id < locals.length := by
  match denotes with
  | .nil => simp [Stmt.idsOf]
  | .cons first others => exact List.forall_mem_append.mpr ⟨first.ids_lt, others.ids_lt⟩

end

mutual

/-- A statement declares the variables that its declarations name, in their order. -/
theorem Phrase.Denotes.declared {p : Phrase} {s : Stmt} (denotes : p.Denotes locals s)
    : List.Forall₂ (fun d id => d.1.name.Denotes locals id)
        (p.leaves.filterMap Leaf.declaration?) s.declared := by
  match denotes with
  | .expr _ | .ret _ => exact .nil
  | .block body => exact body.declared
  | .branch _ whenTrue => exact whenTrue.declared
  | .branchElse _ whenTrue whenFalse =>
      rw [leaves, List.filterMap_cons, List.filterMap_append]
      exact List.rel_append whenTrue.declared whenFalse.declared
  | .whileLoop _ body => exact body.declared
  | @Phrase.Denotes.forLoop _ start condition step _ _ _ _ _ _ _ _ body =>
      have none : (((start.toList ++ condition.toList ++ step.toList).map .term).filterMap
          Leaf.declaration?) = [] := by
        simp [Leaf.declaration?]
      rw [leaves, List.filterMap_append, none]
      exact body.declared
  | .declare own => exact .cons own .nil

theorem Phrase.AllDenote.declared {ps : List Phrase} {ss : List Stmt}
    (denotes : Phrase.AllDenote locals ps ss)
    : List.Forall₂ (fun d id => d.1.name.Denotes locals id)
        ((leavesOf ps).filterMap Leaf.declaration?) (Stmt.declaredIn ss) := by
  match denotes with
  | .nil => exact .nil
  | .cons first others =>
      rw [leavesOf, List.filterMap_append]
      exact List.rel_append first.declared others.declared

end

end

-----------------------------------------------------------------------------------------
-- What is written and what is laid out
-----------------------------------------------------------------------------------------

/-- The variable has the name, the type, the stars and the length that are written. An array
counts as one more star.
-/
structure Variable.Follows (v : Variable) (d : Param × Option Token) : Prop where
  name : v.name = d.1.name.text
  scalar : v.scalar = d.1.scalar
  pointers : v.pointers = d.1.pointers + (if d.2.isSome then 1 else 0)
  arrayLength : (v.arrayLength : Int) = (d.2.map fun length => length.value.toInt).getD 0

/-- The variables that are added to a frame, each as its entry says. -/
theorem Frame.forall₂_locals_addAll (frame : Frame) (es : List Entry)
    : ∃ vs, (frame.addAll es).locals = frame.locals ++ vs
        ∧ List.Forall₂ (fun v e => ∃ above, v = Entry.placed e above) vs es := by
  induction es generalizing frame with
  | nil => exact ⟨[], by simp [addAll], .nil⟩
  | cons e es ih =>
      obtain ⟨vs, locals, placed⟩ := ih (frame.add e)
      refine ⟨e.placed frame.size :: vs, ?_, .cons ⟨_, rfl⟩ placed⟩
      exact locals.trans (List.append_assoc _ _ _)

section

variable {vs : List Variable}

theorem Variable.follows_of_params {params : List Param} {index : Nat}
    (placed : List.Forall₂ (fun v e => ∃ above, v = Entry.placed e above) vs
      (Entry.ofParams index params))
    : List.Forall₂ Follows vs (params.map fun param => (param, none)) := by
  induction params generalizing vs index with
  | nil =>
      cases placed
      exact .nil
  | cons param params ih =>
      cases placed with
      | cons first others =>
          obtain ⟨above, rfl⟩ := first
          exact .cons ⟨rfl, rfl, rfl, rfl⟩ (ih others)

theorem Variable.follows_of_declarations {ds : List (Param × Option Token)}
    (sound : ∀ d ∈ ds, (Entry.ofDeclaration d.1 d.2).Sound)
    (placed : List.Forall₂ (fun v e => ∃ above, v = Entry.placed e above) vs
      (ds.map fun d => .ofDeclaration d.1 d.2))
    : List.Forall₂ Follows vs ds := by
  induction ds generalizing vs with
  | nil =>
      cases placed
      exact .nil
  | cons d ds ih =>
      obtain ⟨own, sound⟩ := List.forall_mem_cons.mp sound
      cases placed with
      | cons first others =>
          obtain ⟨above, rfl⟩ := first
          refine .cons ⟨rfl, rfl, rfl, ?_⟩ (ih sound others)
          obtain ⟨param, _ | length⟩ := d
          · rfl
          · exact Int.toNat_of_nonneg (Int.le_trans (by decide) (own length rfl))

end

/-- Variables that are declared one after the other have indices one after the other. -/
theorem declared_eq_range' {locals : List Variable} {ds : List (Param × Option Token)}
    {ids : List Nat} {n : Nat} (follow : List.Forall₂ Variable.Follows (locals.drop n) ds)
    (denote : List.Forall₂ (fun d id => d.1.name.Denotes locals id) ds ids)
    : ids = List.range' n (locals.length - n) := by
  induction denote generalizing n with
  | nil =>
      have none : locals.length - n = 0 := by simpa using follow.length_eq
      rw [none]
      rfl
  | @cons d id ds ids own _ ih =>
      cases parts : locals.drop n with
      | nil =>
          rw [parts] at follow
          cases follow
      | cons v more =>
          rw [parts] at follow
          cases follow with
          | cons first others =>
              have inside : locals.length - n = more.length + 1 := by
                simpa using congrArg List.length parts
              have found : locals[n]? = some v := by
                rw [← List.head?_drop, parts]
                rfl
              have rest : locals.drop (n + 1) = more := by
                rw [← List.tail_drop, parts]
                rfl
              have next : locals.length - n = locals.length - (n + 1) + 1 := by omega
              obtain rfl : n = id := (own n).mp ⟨v, found, first.name⟩
              rw [next, List.range'_succ, ih (rest ▸ others)]

-----------------------------------------------------------------------------------------
-- Functions and programs
-----------------------------------------------------------------------------------------

/-- The function has the variables that are written, in their order, and its body uses them
by their indices.
-/
structure Definition.Matches (d : Definition) (f : Function) : Prop where
  name : f.name = d.head.name.text
  paramCount : f.paramCount = d.params.length
  params : List.Forall₂ Variable.Follows (f.locals.take f.paramCount)
    (d.params.map fun param => (param, none))
  written : List.Forall₂ Variable.Follows (f.locals.drop f.paramCount) d.declarations
  declared : Stmt.declaredIn f.body = List.range' f.paramCount (f.locals.length - f.paramCount)
  known : ∀ id ∈ Stmt.idsOf f.body, id < f.locals.length
  body : Phrase.AllDenote f.locals d.body f.body

/-- The entries of a body are those of its declarations. -/
theorem Definition.entries_eq (d : Definition)
    : d.entries
      = Entry.ofParams 0 d.params ++ d.declarations.map fun d => .ofDeclaration d.1 d.2 := by
  have same : Leaf.entry? = fun leaf =>
      (Leaf.declaration? leaf).map fun d => Entry.ofDeclaration d.1 d.2 := by
    funext leaf
    cases leaf <;> rfl
  rw [entries, declarations, List.map_filterMap, same]

/-- The frame of a function holds what is written, parameters first. -/
theorem Definition.follow_locals (d : Definition) (sound : ∀ e ∈ d.entries, e.Sound)
    : List.Forall₂ Variable.Follows (Frame.empty.addAll d.entries).locals
        (d.params.map (fun param => (param, none)) ++ d.declarations) := by
  rw [d.entries_eq] at sound ⊢
  obtain ⟨vs, locals, placed⟩ := Frame.empty.forall₂_locals_addAll
    (Entry.ofParams 0 d.params ++ d.declarations.map fun d => .ofDeclaration d.1 d.2)
  have sound' : ∀ d' ∈ d.declarations, (Entry.ofDeclaration d'.1 d'.2).Sound := by
    intro d' member
    exact sound _ (List.mem_append_right _ (List.mem_map.mpr ⟨d', member, rfl⟩))
  rw [locals, ← vs.take_append_drop (Entry.ofParams 0 d.params).length]
  exact List.rel_append (Variable.follows_of_params (List.forall₂_take_append _ _ _ placed))
    (Variable.follows_of_declarations sound' (List.forall₂_drop_append _ _ _ placed))

/-- A function that is what is written has its variables. -/
theorem Definition.Elaborates.matches {d : Definition} {f : Function}
    (elaborates : d.Elaborates f)
    : d.Matches f := by
  obtain ⟨-, sound, takes, name, paramCount, locals, body⟩ := elaborates
  have distinct : (Frame.empty.addAll d.entries).names.Nodup := by
    simpa using (Frame.takes_empty.nil_addAll takes).names
  have denotes := Phrase.allDenote_of_stmts? distinct d.body body
  have follow := d.follow_locals sound
  rw [← locals] at denotes follow
  have count
      : f.paramCount = (d.params.map fun param => (param, (none : Option Token))).length := by
    rw [paramCount, List.length_map]
  have written : List.Forall₂ Variable.Follows (f.locals.drop f.paramCount) d.declarations :=
    count ▸ List.forall₂_drop_append _ _ _ follow
  exact {
    name
    paramCount
    params := count ▸ List.forall₂_take_append _ _ _ follow
    written
    declared := declared_eq_range' written denotes.declared
    known := denotes.ids_lt
    body := denotes
  }

/-- The search for declarations and the reading of statements see the same declarations: the
functions of a program have the variables that are written, and use them by their indices.
-/
theorem ofTokens_declares (ts : List Token) (program : Program)
    (read : Program.ofTokens ts = .ok program)
    : ∃ ds, Definition.AllSpelled ts ds
        ∧ List.Forall₂ Definition.Matches ds program.functions := by
  unfold Program.ofTokens at read
  split at read
  · next fs found =>
      cases read
      obtain ⟨ds, spelled, elaborate⟩ := Grammar.functions_elaborate found
      exact ⟨ds, spelled, elaborate.imp fun d f elaborates => elaborates.matches⟩
  · cases read

namespace Nested

/-- A function that declares an array in its body and another variable in a branch. -/
def tokens : List Token :=
  [⟨.type .int, "int", 0, 0⟩, ⟨.identifier, "f", 0, 4⟩, ⟨.openParen, "(", 0, 5⟩,
    ⟨.type .int, "int", 0, 6⟩, ⟨.star, "*", 0, 10⟩, ⟨.identifier, "p", 0, 11⟩,
    ⟨.closeParen, ")", 0, 12⟩, ⟨.openBrace, "\x7b", 0, 14⟩, ⟨.type .int, "int", 0, 16⟩,
    ⟨.star, "*", 0, 20⟩, ⟨.identifier, "a", 0, 21⟩, ⟨.openBracket, "[", 0, 22⟩,
    ⟨.constant, "3", 3, 23⟩, ⟨.closeBracket, "]", 0, 24⟩, ⟨.semicolon, ";", 0, 25⟩,
    ⟨.ifWord, "if", 0, 27⟩, ⟨.openParen, "(", 0, 30⟩, ⟨.identifier, "p", 0, 31⟩,
    ⟨.closeParen, ")", 0, 32⟩, ⟨.type .int, "int", 0, 34⟩, ⟨.identifier, "b", 0, 38⟩,
    ⟨.semicolon, ";", 0, 39⟩, ⟨.elseWord, "else", 0, 41⟩, ⟨.identifier, "b", 0, 46⟩,
    ⟨.assign, "=", 0, 48⟩, ⟨.identifier, "a", 0, 50⟩, ⟨.openBracket, "[", 0, 51⟩,
    ⟨.constant, "1", 1, 52⟩, ⟨.closeBracket, "]", 0, 53⟩, ⟨.semicolon, ";", 0, 54⟩,
    ⟨.closeBrace, "\x7d", 0, 56⟩]

/-- The function that the tokens spell. -/
def function : Function :=
  ⟨"f", 1, [⟨"p", .int, 8, 1, 0, some 0⟩, ⟨"a", .int, 32, 2, 3, none⟩,
      ⟨"b", .int, 40, 0, 0, none⟩],
    [.declare 1, .branch (.var 0) (.declare 2)
      (some (.expr (.assign (.var 2) (.deref (.binary .add (.var 1) (.constant 1))))))]⟩

end Nested

/-- The variables of `Nested` are declared in its body in the order of their indices. -/
theorem ofTokens_declares_nested
    : Program.ofTokens Nested.tokens = .ok ⟨[Nested.function]⟩
      ∧ (∃ ds, Definition.AllSpelled Nested.tokens ds
          ∧ List.Forall₂ Definition.Matches ds [Nested.function])
      ∧ Stmt.declaredIn Nested.function.body = [1, 2] := by
  have read : Program.ofTokens Nested.tokens = .ok ⟨[Nested.function]⟩ := by with_unfolding_all rfl
  obtain ⟨ds, spelled, all⟩ := ofTokens_declares Nested.tokens _ read
  refine ⟨read, ⟨ds, spelled, all⟩, ?_⟩
  cases all with
  | cons first _ => exact first.declared

end SlotC
