import SlotC.Proofs.Code.Frame
import SlotC.Proofs.Grammar.Regular

/-! Where code generation fails. For a program that was read there are only faults of single
expressions: an assignment without a target, an address of nothing that has one, or a call
with too many arguments. Every other error is ruled out by the frame of the function.
-/

namespace SlotC

-----------------------------------------------------------------------------------------
-- Faults of expressions
-----------------------------------------------------------------------------------------

namespace Expr

mutual

/-- The expression and all expressions inside it. -/
def nodes : Expr → List Expr
  | .constant value => [.constant value]
  | .var id => [.var id]
  | .binary op left right => .binary op left right :: (left.nodes ++ right.nodes)
  | .assign target value => .assign target value :: (target.nodes ++ value.nodes)
  | .addressOf operand => .addressOf operand :: operand.nodes
  | .deref operand => .deref operand :: operand.nodes
  | .call name arguments => .call name arguments :: nodesOf arguments

/-- The expressions and all expressions inside them. -/
def nodesOf : List Expr → List Expr
  | [] => []
  | e :: es => e.nodes ++ nodesOf es

end

/-- Whether the expression is a variable or dereferenced, so that it has an address. -/
def isPlace : Expr → Bool
  | .var _ | .deref _ => true
  | _ => false

/-- Whether the expression is dereferenced or a variable that is no array, so that it can be
assigned to.
-/
def isTarget (f : Function) : Expr → Bool
  | .deref _ => true
  | .var id => (f.get? id).any fun v => !v.isArray
  | _ => false

/-- Whether the expression itself has no code, whatever stands inside it. -/
def isIllFormed (f : Function) : Expr → Bool
  | .assign target _ => !target.isTarget f
  | .addressOf operand => !operand.isPlace
  | .call _ arguments => 6 < arguments.length
  | _ => false

/-- An expression is one of its nodes. -/
theorem mem_nodes (e : Expr) : e ∈ e.nodes := by
  cases e <;> simp [nodes]

end Expr

/-- The error says what is wrong with the expression. -/
inductive CodeError.Explains (f : Function) : CodeError → Expr → Prop where
  | target {target value : Expr} (other : target.isPlace = false)
      : Explains f (.notAnLvalue target) (.assign target value)
  | array {id : Nat} {v : Variable} {value : Expr} (found : f.get? id = some v)
      (array : v.isArray)
      : Explains f (.assignToArray v.name) (.assign (.var id) value)
  | operand {operand : Expr} (other : operand.isPlace = false)
      : Explains f (.notAnLvalue operand) (.addressOf operand)
  | arguments {name : String} {arguments : List Expr} (many : 6 < arguments.length)
      : Explains f (.tooManyArguments name arguments.length) (.call name arguments)

/-- What has a fault is ill formed. -/
theorem CodeError.Explains.isIllFormed {f : Function} {error : CodeError} {e : Expr}
    (explains : error.Explains f e)
    : e.isIllFormed f := by
  cases explains with
  | @target target value other =>
      cases target with
      | var | deref => cases other
      | constant | binary | assign | addressOf | call => rfl
  | array found array => simp [Expr.isIllFormed, Expr.isTarget, found, array]
  | operand other => simp [Expr.isIllFormed, other]
  | arguments many => simpa [Expr.isIllFormed] using many

mutual

/-- The expressions that stand in a statement. -/
def Stmt.exprs : Stmt → List Expr
  | .expr value | .ret value => [value]
  | .block body => Stmt.exprsOf body
  | .branch condition whenTrue none => condition :: whenTrue.exprs
  | .branch condition whenTrue (some whenFalse) =>
    condition :: (whenTrue.exprs ++ whenFalse.exprs)
  | .whileLoop condition body => condition :: body.exprs
  | .forLoop start condition step body =>
    start.toList ++ condition.toList ++ step.toList ++ body.exprs
  | .declare _ => []

/-- The expressions that stand in statements. -/
def Stmt.exprsOf : List Stmt → List Expr
  | [] => []
  | s :: ss => s.exprs ++ Stmt.exprsOf ss

end

/-- All expressions in the body of a function. -/
def Function.nodes (f : Function) : List Expr :=
  Expr.nodesOf (Stmt.exprsOf f.body)

-----------------------------------------------------------------------------------------
-- Errors of emissions
-----------------------------------------------------------------------------------------

namespace Emit

/-- Whatever error the emission ends with satisfies the condition. -/
def Only {α : Type} (x : Emit α) (P : CodeError → Prop) : Prop :=
  ∀ (g : GenState) (error : CodeError), (x g).outcome = .error error → P error

section

variable {α β : Type} {x : Emit α} {k : α → Emit β} {P : CodeError → Prop}

/-- Of two steps that fail, the first fails or the second does after it. -/
theorem outcome_bind_error {g : GenState} {error : CodeError}
    (failed : ((x >>= k) g).outcome = .error error)
    : (x g).outcome = .error error
      ∨ ∃ a ls g₁, x.Emits g ls g₁ a ∧ (k a g₁).outcome = .error error := by
  rcases first : x g with ⟨l, g₁, error' | a⟩
  · rw [bind_error first] at failed
    cases failed
    exact .inl rfl
  · rw [bind_ok first] at failed
    exact .inr ⟨a, l, g₁, first, failed⟩

theorem Only.bind (first : x.Only P) (second : ∀ a, (k a).Only P) : (x >>= k).Only P := by
  intro g error failed
  rcases outcome_bind_error failed with failed | ⟨a, _, g₁, -, failed⟩
  · exact first g error failed
  · exact second a g₁ error failed

/-- An emission that succeeds from every state has no errors. -/
theorem only_of_emits (emits : ∀ g, ∃ ls g' a, x.Emits g ls g' a) : x.Only P := by
  intro g error failed
  obtain ⟨_, _, _, emitted⟩ := emits g
  rw [emitted.outcome.1] at failed
  cases failed

theorem only_fail {error : CodeError} (own : P error) : (fail error : Emit α).Only P := by
  intro g error' failed
  cases failed
  exact own

end

variable {f : Function} {P : CodeError → Prop}

theorem only_pure : (pure () : Emit Unit).Only P :=
  only_of_emits fun _ => ⟨_, _, _, rfl⟩

theorem only_lines {listing : Listing} : (lines listing).Only P :=
  only_of_emits fun _ => ⟨_, _, _, rfl⟩

theorem only_depth : depth.Only P :=
  only_of_emits fun _ => ⟨_, _, _, rfl⟩

theorem only_setDepth {d : Int} : (setDepth d).Only P :=
  only_of_emits fun _ => ⟨_, _, _, rfl⟩

theorem only_freshLabel : freshLabel.Only P :=
  only_of_emits fun _ => ⟨_, _, _, rfl⟩

theorem only_push {operand : Operand} : (push operand).Only P :=
  only_of_emits fun _ => ⟨_, _, _, rfl⟩

theorem only_pop {register : Register} : (pop register).Only P :=
  only_of_emits fun _ => ⟨_, _, _, rfl⟩

theorem only_load : load.Only P :=
  only_of_emits fun _ => ⟨_, _, _, rfl⟩

theorem only_address {v : Variable} : (address v).Only P :=
  only_of_emits fun _ => ⟨_, _, _, rfl⟩

theorem only_constant {value : Int64} : (constant value).Only P :=
  only_of_emits fun _ => ⟨_, _, _, emits_constant.mpr ⟨rfl, rfl⟩⟩

theorem only_operate {op : BinaryOp} {step : Option Nat} : (operate op step).Only P :=
  only_of_emits fun _ => ⟨_, _, _, emits_operate.mpr ⟨rfl, rfl⟩⟩

theorem only_jumpIfZero {l : Label} : (jumpIfZero l).Only P :=
  only_of_emits fun _ => ⟨_, _, _, rfl⟩

/-- A variable is found if it is there. -/
theorem only_variableOf_bind {β : Type} {id : Nat} {k : Variable → Emit β}
    (unknown : f.get? id = none → P (.undeclared id f.name))
    (next : ∀ v, f.get? id = some v → (k v).Only P)
    : (variableOf f id >>= k).Only P := by
  unfold variableOf
  cases found : f.get? id with
  | none =>
      have failed : (fail (.undeclared id f.name) : Emit β).Only P := only_fail (unknown found)
      exact failed
  | some v => exact next v found

/-- The target of an assignment is refused only if it is unknown or an array. -/
theorem only_checkTarget {target : Expr}
    (unknown : ∀ id ∈ target.ids, f.get? id = none → P (.undeclared id f.name))
    (array : ∀ id v, target = .var id → f.get? id = some v → v.isArray → P (.assignToArray v.name))
    : (checkTarget f target).Only P := by
  cases target with
  | var id =>
      refine only_variableOf_bind (unknown id List.mem_cons_self) fun v found => ?_
      split
      · next isArray => exact only_fail (array id v rfl found isArray)
      · exact only_pure
  | constant | binary | assign | addressOf | deref | call => exact only_pure

mutual

/-- The code of an expression fails only for a variable that is unknown or with what explains a
fault in it.
-/
theorem value_only (e : Expr)
    (unknown : ∀ id ∈ e.ids, f.get? id = none → P (.undeclared id f.name))
    (explained : ∀ n ∈ e.nodes, ∀ error : CodeError, error.Explains f n → P error)
    : (value f e).Only P := by
  have own := explained e e.mem_nodes
  cases e with
  | constant number =>
      rw [value]
      exact only_constant
  | var id =>
      rw [value]
      refine only_variableOf_bind (unknown id List.mem_cons_self) fun v _ =>
        only_address.bind fun _ => ?_
      split
      · exact only_pure
      · exact only_load
  | binary op left right =>
      obtain ⟨unknown₁, unknown₂⟩ := List.forall_mem_append.mp unknown
      obtain ⟨inLeft, inRight⟩ := List.forall_mem_append.mp (List.forall_mem_cons.mp explained).2
      rw [value]
      exact (value_only left unknown₁ inLeft).bind fun _ =>
        (value_only right unknown₂ inRight).bind fun _ => only_operate
  | assign target source =>
      obtain ⟨unknown₁, unknown₂⟩ := List.forall_mem_append.mp unknown
      obtain ⟨inTarget, inSource⟩ := List.forall_mem_append.mp (List.forall_mem_cons.mp explained).2
      have checked : (checkTarget f target).Only P := by
        refine only_checkTarget unknown₁ ?_
        rintro id v rfl found array
        exact own _ (.array found array)
      have placed := place_only target unknown₁ inTarget fun other => own _ (.target other)
      rw [value]
      exact checked.bind fun _ => placed.bind fun _ =>
        (value_only source unknown₂ inSource).bind fun _ => only_of_emits fun _ => ⟨_, _, _, rfl⟩
  | addressOf operand =>
      rw [value]
      exact place_only operand unknown (List.forall_mem_cons.mp explained).2
        fun other => own _ (.operand other)
  | deref operand =>
      rw [value]
      exact (value_only operand unknown (List.forall_mem_cons.mp explained).2).bind fun _ =>
        only_load
  | call name arguments =>
      rw [value]
      split
      · next many => exact only_fail (own _ (.arguments many))
      · next few =>
          have inside := (List.forall_mem_cons.mp explained).2
          refine (values_only arguments unknown inside).bind fun _ => ?_
          exact only_of_emits fun _ =>
            ⟨_, _, _, (emits_callWith (Nat.le_of_not_lt few)).mpr ⟨rfl, rfl⟩⟩

/-- So does the code of a place, or there is no place. -/
theorem place_only (e : Expr)
    (unknown : ∀ id ∈ e.ids, f.get? id = none → P (.undeclared id f.name))
    (explained : ∀ n ∈ e.nodes, ∀ error : CodeError, error.Explains f n → P error)
    (none : e.isPlace = false → P (.notAnLvalue e))
    : (place f e).Only P := by
  cases e with
  | var id =>
      rw [place]
      exact only_variableOf_bind (unknown id List.mem_cons_self) fun _ _ => only_address
  | deref operand =>
      rw [place]
      exact value_only operand unknown (List.forall_mem_cons.mp explained).2
  | constant | binary | assign | addressOf | call =>
      simp only [place]
      exact only_fail (none rfl)

/-- So does the code of several expressions. -/
theorem values_only (es : List Expr)
    (unknown : ∀ id ∈ Expr.idsOf es, f.get? id = none → P (.undeclared id f.name))
    (explained : ∀ n ∈ Expr.nodesOf es, ∀ error : CodeError, error.Explains f n → P error)
    : (values f es).Only P := by
  cases es with
  | nil =>
      rw [values]
      exact only_pure
  | cons e es =>
      obtain ⟨unknown₁, unknown₂⟩ := List.forall_mem_append.mp unknown
      obtain ⟨inFirst, inOthers⟩ := List.forall_mem_append.mp explained
      rw [values]
      exact (value_only e unknown₁ inFirst).bind fun _ => values_only es unknown₂ inOthers

end

theorem effect_only {e : Option Expr} (all : ∀ e' ∈ e.toList, (value f e').Only P)
    : (effect f e).Only P := by
  cases e with
  | none => exact only_pure
  | some e => exact (all e List.mem_cons_self).bind fun _ => only_pop

theorem leaveUnless_only {l : Label} {e : Option Expr}
    (all : ∀ e' ∈ e.toList, (value f e').Only P)
    : (leaveUnless f l e).Only P := by
  cases e with
  | none => exact only_pure
  | some e => exact (all e List.mem_cons_self).bind fun _ => only_jumpIfZero

theorem branch_only {condition : Expr} {whenTrue : Stmt} {whenFalse : Option Stmt}
    (test : (value f condition).Only P) (yes : (stmt f whenTrue).Only P)
    (no : (alternative f whenFalse).Only P)
    : (stmt f (.branch condition whenTrue whenFalse)).Only P := by
  rw [stmt_branch_eq]
  refine only_freshLabel.bind fun id => test.bind fun _ => only_jumpIfZero.bind fun _ => ?_
  refine only_depth.bind fun entry => yes.bind fun _ => only_lines.bind fun _ => ?_
  exact only_lines.bind fun _ => only_setDepth.bind fun _ => no.bind fun _ => only_lines

theorem repetition_only {id : Nat} {condition step : Option Expr} {body : Stmt}
    (test : ∀ e ∈ condition.toList, (value f e).Only P) (inner : (stmt f body).Only P)
    (next : ∀ e ∈ step.toList, (value f e).Only P)
    : (repetition f id condition step body).Only P := by
  unfold repetition
  refine only_lines.bind fun _ => (leaveUnless_only test).bind fun _ => inner.bind fun _ => ?_
  exact only_pop.bind fun _ => (effect_only next).bind fun _ => only_lines.bind fun _ => only_lines

theorem forLoop_only {start condition step : Option Expr} {body : Stmt}
    (heads : ∀ e ∈ start.toList ++ condition.toList ++ step.toList, (value f e).Only P)
    (inner : (stmt f body).Only P)
    : (stmt f (.forLoop start condition step body)).Only P := by
  simp only [List.forall_mem_append] at heads
  obtain ⟨⟨first, test⟩, next⟩ := heads
  rw [stmt_forLoop_eq]
  exact only_freshLabel.bind fun id => (effect_only first).bind fun _ =>
    (repetition_only test inner next).bind fun _ => only_push

mutual

/-- The code of a statement fails only as that of its expressions does. -/
theorem stmt_only (s : Stmt) (all : ∀ e ∈ s.exprs, (value f e).Only P) : (stmt f s).Only P := by
  match s with
  | .expr e =>
      rw [stmt]
      exact all e List.mem_cons_self
  | .ret e =>
      rw [stmt]
      exact (all e List.mem_cons_self).bind fun _ => only_pop.bind fun _ => only_lines.bind fun _ =>
        only_of_emits fun _ => ⟨_, _, _, rfl⟩
  | .block body =>
      rw [stmt]
      exact (stmts_only body all).bind fun _ => only_push
  | .branch condition whenTrue none =>
      obtain ⟨test, yes⟩ := List.forall_mem_cons.mp all
      exact branch_only test (stmt_only whenTrue yes) only_push
  | .branch condition whenTrue (some whenFalse) =>
      obtain ⟨test, branches⟩ := List.forall_mem_cons.mp all
      obtain ⟨yes, no⟩ := List.forall_mem_append.mp branches
      exact branch_only test (stmt_only whenTrue yes) (stmt_only whenFalse no)
  | .whileLoop condition body =>
      obtain ⟨test, inner⟩ := List.forall_mem_cons.mp all
      rw [stmt_whileLoop_eq]
      exact forLoop_only (List.forall_mem_singleton.mpr test) (stmt_only body inner)
  | .forLoop start condition step body =>
      obtain ⟨heads, inner⟩ := List.forall_mem_append.mp all
      exact forLoop_only heads (stmt_only body inner)
  | .declare _ =>
      rw [stmt]
      exact only_push

/-- So does the code of statements. -/
theorem stmts_only (ss : List Stmt) (all : ∀ e ∈ Stmt.exprsOf ss, (value f e).Only P)
    : (stmts f ss).Only P := by
  match ss with
  | [] =>
      rw [stmts]
      exact only_pure
  | s :: ss =>
      obtain ⟨first, others⟩ := List.forall_mem_append.mp all
      rw [stmts]
      exact (stmt_only s first).bind fun _ => only_pop.bind fun _ => stmts_only ss others

end

-----------------------------------------------------------------------------------------
-- Emissions that succeed
-----------------------------------------------------------------------------------------

/-- What can be checked as a target and has a place can be assigned to. -/
theorem isTarget_of_emits {target : Expr} {g g' : GenState} {ls : Listing}
    (checked : ∀ id, target = .var id → ∃ v, f.get? id = some v ∧ v.isArray = false)
    (placed : (place f target).Emits g ls g' ())
    : target.isTarget f := by
  rcases place_emits_cases placed with ⟨id, rfl⟩ | ⟨operand, rfl⟩
  · obtain ⟨v, found, array⟩ := checked id rfl
    simp [Expr.isTarget, found, array]
  · rfl

theorem isPlace_of_emits {e : Expr} {g g' : GenState} {ls : Listing}
    (placed : (place f e).Emits g ls g' ())
    : e.isPlace := by
  rcases place_emits_cases placed with ⟨id, rfl⟩ | ⟨operand, rfl⟩
  · rfl
  · rfl

mutual

/-- An expression that has code has no fault in it. -/
theorem value_wellFormed (e : Expr) {g g' : GenState} {ls : Listing}
    (h : (value f e).Emits g ls g' ())
    : ∀ n ∈ e.nodes, n.isIllFormed f = false := by
  cases e with
  | constant | var => exact List.forall_mem_singleton.mpr rfl
  | binary op left right =>
      obtain ⟨_, _, _, _, first, second, -⟩ := emits_value_binary.mp h
      exact List.forall_mem_cons.mpr ⟨rfl, List.forall_mem_append.mpr
        ⟨value_wellFormed left first, value_wellFormed right second⟩⟩
  | assign target source =>
      obtain ⟨checked, _, _, _, _, first, second, -⟩ := emits_value_assign.mp h
      have own : (Expr.assign target source).isIllFormed f = false := by
        rw [Expr.isIllFormed, isTarget_of_emits checked first]
        rfl
      exact List.forall_mem_cons.mpr ⟨own, List.forall_mem_append.mpr
        ⟨place_wellFormed target first, value_wellFormed source second⟩⟩
  | addressOf operand =>
      have placed := emits_value_addressOf.mp h
      have own : (Expr.addressOf operand).isIllFormed f = false := by
        rw [Expr.isIllFormed, isPlace_of_emits placed]
        rfl
      exact List.forall_mem_cons.mpr ⟨own, place_wellFormed operand placed⟩
  | deref operand =>
      obtain ⟨_, first, -⟩ := emits_value_deref.mp h
      exact List.forall_mem_cons.mpr ⟨rfl, value_wellFormed operand first⟩
  | call name arguments =>
      obtain ⟨few, _, _, first, -⟩ := emits_value_call.mp h
      have own : (Expr.call name arguments).isIllFormed f = false :=
        decide_eq_false (Nat.not_lt.mpr few)
      exact List.forall_mem_cons.mpr ⟨own, values_wellFormed arguments first⟩

/-- So has an expression that has a place. -/
theorem place_wellFormed (e : Expr) {g g' : GenState} {ls : Listing}
    (h : (place f e).Emits g ls g' ())
    : ∀ n ∈ e.nodes, n.isIllFormed f = false := by
  cases e with
  | var id => exact List.forall_mem_singleton.mpr rfl
  | deref operand =>
      exact List.forall_mem_cons.mpr ⟨rfl, value_wellFormed operand (emits_place_deref.mp h)⟩
  | constant | binary | assign | addressOf | call => cases isPlace_of_emits h

theorem values_wellFormed (es : List Expr) {g g' : GenState} {ls : Listing}
    (h : (values f es).Emits g ls g' ())
    : ∀ n ∈ Expr.nodesOf es, n.isIllFormed f = false := by
  cases es with
  | nil => simp [Expr.nodesOf]
  | cons e es =>
      obtain ⟨_, _, _, first, others, -⟩ := emits_values_cons.mp h
      exact List.forall_mem_append.mpr ⟨value_wellFormed e first, values_wellFormed es others⟩

end

/-- The expression has code. -/
def HasCode (f : Function) (e : Expr) : Prop :=
  ∃ g ls g', (value f e).Emits g ls g' ()

theorem effect_hasCode {e : Option Expr} {g g' : GenState} {ls : Listing}
    (h : (effect f e).Emits g ls g' ())
    : ∀ e' ∈ e.toList, HasCode f e' := by
  cases e with
  | none => simp
  | some e =>
      obtain ⟨_, first, -⟩ := emits_effect_some.mp h
      exact List.forall_mem_singleton.mpr ⟨_, _, _, first⟩

theorem leaveUnless_hasCode {l : Label} {e : Option Expr} {g g' : GenState} {ls : Listing}
    (h : (leaveUnless f l e).Emits g ls g' ())
    : ∀ e' ∈ e.toList, HasCode f e' := by
  cases e with
  | none => simp
  | some e =>
      obtain ⟨_, first, -⟩ := emits_leaveUnless_some.mp h
      exact List.forall_mem_singleton.mpr ⟨_, _, _, first⟩

theorem forLoop_hasCode {start condition step : Option Expr} {body : Stmt} {g g' : GenState}
    {ls : Listing} (h : (stmt f (.forLoop start condition step body)).Emits g ls g' ())
    (inner : ∀ {g₁ g₂ l₂}, (stmt f body).Emits g₁ l₂ g₂ () → ∀ e ∈ body.exprs, HasCode f e)
    : ∀ e ∈ (Stmt.forLoop start condition step body).exprs, HasCode f e := by
  obtain ⟨_, _, _, zeroth, repeated, -⟩ := emits_stmt_forLoop.mp h
  obtain ⟨_, _, _, _, first, second, third, -⟩ := emits_repetition.mp repeated
  simp only [Stmt.exprs, List.forall_mem_append]
  exact ⟨⟨⟨effect_hasCode zeroth, leaveUnless_hasCode first⟩, effect_hasCode third⟩, inner second⟩

mutual

/-- The expressions in a statement that has code have code. -/
theorem stmt_hasCode (s : Stmt) {g g' : GenState} {ls : Listing}
    (h : (stmt f s).Emits g ls g' ())
    : ∀ e ∈ s.exprs, HasCode f e := by
  match s with
  | .expr e => exact List.forall_mem_singleton.mpr ⟨_, _, _, emits_stmt_expr.mp h⟩
  | .ret e =>
      obtain ⟨_, first, -⟩ := emits_stmt_ret.mp h
      exact List.forall_mem_singleton.mpr ⟨_, _, _, first⟩
  | .block body =>
      obtain ⟨_, _, first, -⟩ := emits_stmt_block.mp h
      exact stmts_hasCode body first
  | .branch condition whenTrue none =>
      obtain ⟨_, _, _, _, first, second, -⟩ := emits_stmt_branch.mp h
      exact List.forall_mem_cons.mpr ⟨⟨_, _, _, first⟩, stmt_hasCode whenTrue second⟩
  | .branch condition whenTrue (some whenFalse) =>
      obtain ⟨_, _, _, _, first, second, third, -⟩ := emits_stmt_branch.mp h
      exact List.forall_mem_cons.mpr ⟨⟨_, _, _, first⟩, List.forall_mem_append.mpr
        ⟨stmt_hasCode whenTrue second, stmt_hasCode whenFalse third⟩⟩
  | .whileLoop condition body =>
      rw [stmt_whileLoop_eq] at h
      exact forLoop_hasCode h (stmt_hasCode body)
  | .forLoop start condition step body => exact forLoop_hasCode h (stmt_hasCode body)
  | .declare _ => simp [Stmt.exprs]

theorem stmts_hasCode (ss : List Stmt) {g g' : GenState} {ls : Listing}
    (h : (stmts f ss).Emits g ls g' ())
    : ∀ e ∈ Stmt.exprsOf ss, HasCode f e := by
  match ss with
  | [] => simp [Stmt.exprsOf]
  | s :: ss =>
      obtain ⟨_, _, _, first, second, -⟩ := emits_stmts_cons.mp h
      exact List.forall_mem_append.mpr ⟨stmt_hasCode s first, stmts_hasCode ss second⟩

end

end Emit

-----------------------------------------------------------------------------------------
-- Functions
-----------------------------------------------------------------------------------------

section

variable {f : Function} {P : CodeError → Prop}

theorem Expr.mem_nodesOf {es : List Expr} {n : Expr}
    : n ∈ Expr.nodesOf es ↔ ∃ e ∈ es, n ∈ e.nodes := by
  induction es with
  | nil => simp [Expr.nodesOf]
  | cons e es ih => simp [Expr.nodesOf, ih]

theorem Expr.mem_idsOf {es : List Expr} {id : Nat}
    : id ∈ Expr.idsOf es ↔ ∃ e ∈ es, id ∈ e.ids := by
  induction es with
  | nil => simp [Expr.idsOf]
  | cons e es ih => simp [Expr.idsOf, ih]

mutual

/-- The variables in a statement are those in its expressions. -/
theorem Stmt.ids_eq (s : Stmt) : s.ids = Expr.idsOf s.exprs := by
  match s with
  | .expr e | .ret e => simp [Stmt.ids, Stmt.exprs, Expr.idsOf]
  | .block body => exact Stmt.idsOf_eq body
  | .branch condition whenTrue none =>
      rw [Stmt.ids, Stmt.exprs, Expr.idsOf, Stmt.ids_eq whenTrue]
  | .branch condition whenTrue (some whenFalse) =>
      rw [Stmt.ids, Stmt.exprs, Expr.idsOf, Expr.idsOf_append, Stmt.ids_eq whenTrue,
        Stmt.ids_eq whenFalse]
  | .whileLoop condition body => rw [Stmt.ids, Stmt.exprs, Expr.idsOf, Stmt.ids_eq body]
  | .forLoop start condition step body =>
      rw [Stmt.ids, Stmt.exprs, Expr.idsOf_append _ body.exprs, Stmt.ids_eq body]
  | .declare _ => rfl

theorem Stmt.idsOf_eq (ss : List Stmt) : Stmt.idsOf ss = Expr.idsOf (Stmt.exprsOf ss) := by
  match ss with
  | [] => rfl
  | s :: ss => rw [Stmt.idsOf, Stmt.exprsOf, Expr.idsOf_append, Stmt.ids_eq s, Stmt.idsOf_eq ss]

end

namespace Emit

/-- A parameter is stored unless it comes in no register. -/
theorem spill_only {vs : List Variable}
    (absent : ∀ v ∈ vs, v.register? = none → P (.noRegister v.name))
    : (spill vs).Only P := by
  induction vs with
  | nil => exact only_pure
  | cons v vs ih =>
      obtain ⟨own, others⟩ := List.forall_mem_cons.mp absent
      have register : v.argIndex.bind (fun index => Register.forArguments[index]?) = v.register? :=
        rfl
      rw [spill, register]
      cases found : v.register? with
      | none => exact only_fail (own found)
      | some r => exact only_lines.bind fun _ => ih others

/-- The body of a function leaves the stack as it was, so it fails only as its statements do.
-/
theorem body_only (all : (stmts f f.body).Only P)
    : (setDepth 0 >>= fun _ => body f).Only P := by
  intro g error failed
  rcases outcome_bind_error failed with failed | ⟨_, _, _, reset, failed⟩
  · cases failed
  obtain ⟨-, rfl⟩ := emits_setDepth.mp reset
  rcases outcome_bind_error failed with failed | ⟨_, _, _, emitted, failed⟩
  · exact all _ _ failed
  rcases outcome_bind_error failed with failed | ⟨_, _, g₂, left, checked⟩
  · cases failed
  obtain ⟨-, rfl⟩ := emits_epilogue.mp left
  have level : g₂.depth = 0 := stmts_state f.body emitted
  change ((if g₂.depth = 0 then pure () else fail _ : Emit Unit) g₂).outcome = _ at checked
  rw [if_pos level] at checked
  cases checked

/-- A function fails only for its frame, a parameter without a register, a variable that is
unknown, or with what explains a fault in its body.
-/
theorem function_only (large : fitsInt32 f.frame = false → P (.frameTooLarge f.name))
    (absent : ∀ v ∈ f.params, v.register? = none → P (.noRegister v.name))
    (unknown : ∀ id ∈ Stmt.idsOf f.body, f.get? id = none → P (.undeclared id f.name))
    (explained : ∀ n ∈ f.nodes, ∀ error : CodeError, error.Explains f n → P error)
    : (function f).Only P := by
  have all : (stmts f f.body).Only P := by
    refine stmts_only f.body fun e standing => value_only e ?_ ?_
    · intro id member
      exact unknown id (Stmt.idsOf_eq f.body ▸ Expr.mem_idsOf.mpr ⟨e, standing, member⟩)
    · intro n member
      exact explained n (Expr.mem_nodesOf.mpr ⟨e, standing, member⟩)
  rw [function_eq]
  split
  · have head : (prologue f.name f.frame).Only P :=
      only_of_emits fun _ => ⟨_, _, _, emits_prologue.mpr ⟨rfl, rfl⟩⟩
    exact head.bind fun _ => (spill_only absent).bind fun _ => body_only all
  · next unfit => exact only_fail (large (by simpa using unfit))

/-- A function with its variables in place fails only with what explains a fault in its body.
-/
theorem function_only_of_laidOut (laid : f.LaidOut)
    (known : ∀ id ∈ Stmt.idsOf f.body, id < f.locals.length)
    : (function f).Only fun error => ∃ n ∈ f.nodes, error.Explains f n := by
  refine function_only ?_ ?_ ?_ fun n member error explains => ⟨n, member, explains⟩
  · intro unfit
    rw [laid.fitsInt32_frame] at unfit
    cases unfit
  · intro v member absent
    have given := laid.register?_isSome member
    rw [absent] at given
    cases given
  · intro id member unknown
    rw [Function.get?, List.getElem?_eq_getElem (known id member)] at unknown
    cases unknown

/-- A function that has code has no fault in its body. -/
theorem function_wellFormed {g g' : GenState} {ls : Listing} (h : (function f).Emits g ls g' ())
    : ∀ n ∈ f.nodes, n.isIllFormed f = false := by
  obtain ⟨_, _, -, body, -⟩ := function_emits h
  intro n member
  obtain ⟨e, standing, inside⟩ := Expr.mem_nodesOf.mp member
  obtain ⟨_, _, _, code⟩ := stmts_hasCode f.body body e standing
  exact value_wellFormed e code n inside

theorem functions_only {fs : List Function} (all : ∀ f ∈ fs, (function f).Only P)
    : (functions fs).Only P := by
  induction fs with
  | nil => exact only_pure
  | cons f fs ih =>
      obtain ⟨own, others⟩ := List.forall_mem_cons.mp all
      exact own.bind fun _ => ih others

theorem functions_wellFormed {fs : List Function} {g g' : GenState} {ls : Listing}
    (h : (functions fs).Emits g ls g' ())
    : ∀ f ∈ fs, ∀ n ∈ f.nodes, n.isIllFormed f = false := by
  induction fs generalizing g ls with
  | nil => simp
  | cons f fs ih =>
      obtain ⟨_, _, _, first, others, -⟩ := emits_functions_cons.mp h
      exact List.forall_mem_cons.mpr ⟨function_wellFormed first, ih others⟩

end Emit

end

-----------------------------------------------------------------------------------------
-- Programs
-----------------------------------------------------------------------------------------

/-- The error of a program that was read explains a fault in one of its functions. -/
theorem Program.explains_of_listing {ts : List Token} {program : Program} {error : CodeError}
    (read : Program.ofTokens ts = .ok program) (failed : program.listing = .error error)
    : ∃ f ∈ program.functions, ∃ n ∈ f.nodes, error.Explains f n := by
  have all : (Emit.functions program.functions).Only fun error =>
      ∃ f ∈ program.functions, ∃ n ∈ f.nodes, error.Explains f n := by
    refine Emit.functions_only fun f member g error failed => ⟨f, member, ?_⟩
    have laid := Program.laidOut_of_ofTokens read f member
    have regular := Program.regular_of_ofTokens read f member
    exact Emit.function_only_of_laidOut laid regular.known g error failed
  exact all _ _ (Program.listing_eq_error.mp failed)

/-- A program that was read has no code exactly if there is an ill-formed expression in one of
its functions: an assignment to something that is neither dereferenced nor a variable other
than an array, the address of something that is neither a variable nor dereferenced, or a call
with more than six arguments. The error explains such an expression, so none of the errors of
hand-made functions arises.
-/
theorem listing_fails_iff (ts : List Token) (program : Program)
    (read : Program.ofTokens ts = .ok program)
    : ((∃ error, program.listing = .error error)
        ↔ ∃ f ∈ program.functions, ∃ n ∈ f.nodes, n.isIllFormed f)
      ∧ ∀ error, program.listing = .error error →
          (∃ f ∈ program.functions, ∃ n ∈ f.nodes, error.Explains f n)
          ∧ (∀ id name, error ≠ .undeclared id name)
          ∧ (∀ param, error ≠ .noRegister param)
          ∧ (∀ name, error ≠ .frameTooLarge name)
          ∧ (∀ depth name, error ≠ .unbalanced depth name)
          ∧ ∀ name count, error = .tooManyArguments name count →
              ∃ f ∈ program.functions, ∃ arguments, .call name arguments ∈ f.nodes
                ∧ arguments.length = count ∧ 6 < count := by
  refine ⟨⟨?_, ?_⟩, ?_⟩
  · rintro ⟨error, failed⟩
    obtain ⟨f, member, n, inside, explains⟩ := Program.explains_of_listing read failed
    exact ⟨f, member, n, inside, explains.isIllFormed⟩
  · rintro ⟨f, member, n, inside, illFormed⟩
    cases ended : program.listing with
    | error error => exact ⟨error, rfl⟩
    | ok listing =>
        obtain ⟨g, emitted⟩ := Program.listing_eq_ok.mp ended
        rw [Emit.functions_wellFormed emitted f member n inside] at illFormed
        cases illFormed
  · intro error failed
    obtain ⟨f, member, n, inside, explains⟩ := Program.explains_of_listing read failed
    refine ⟨⟨f, member, n, inside, explains⟩, ?_⟩
    cases explains with
    | target | array | operand => simp
    | arguments many =>
        refine ⟨nofun, nofun, nofun, nofun, ?_⟩
        rintro name count same
        cases same
        exact ⟨f, member, _, inside, rfl, many⟩

namespace Inner

/-- A function that assigns to an array inside the value of another assignment, in a loop. -/
def tokens : List Token :=
  [⟨.type .int, "int", 0, 0⟩, ⟨.identifier, "f", 0, 4⟩, ⟨.openParen, "(", 0, 5⟩,
    ⟨.type .int, "int", 0, 6⟩, ⟨.identifier, "p", 0, 10⟩, ⟨.closeParen, ")", 0, 11⟩,
    ⟨.openBrace, "\x7b", 0, 13⟩, ⟨.type .int, "int", 0, 15⟩, ⟨.identifier, "a", 0, 19⟩,
    ⟨.openBracket, "[", 0, 20⟩, ⟨.constant, "2", 2, 21⟩, ⟨.closeBracket, "]", 0, 22⟩,
    ⟨.semicolon, ";", 0, 23⟩, ⟨.whileWord, "while", 0, 25⟩, ⟨.openParen, "(", 0, 31⟩,
    ⟨.identifier, "p", 0, 32⟩, ⟨.closeParen, ")", 0, 33⟩, ⟨.identifier, "p", 0, 35⟩,
    ⟨.assign, "=", 0, 37⟩, ⟨.constant, "1", 1, 39⟩, ⟨.plus, "+", 0, 41⟩, ⟨.openParen, "(", 0, 43⟩,
    ⟨.identifier, "a", 0, 44⟩, ⟨.assign, "=", 0, 46⟩, ⟨.identifier, "p", 0, 48⟩,
    ⟨.closeParen, ")", 0, 49⟩, ⟨.semicolon, ";", 0, 50⟩, ⟨.closeBrace, "\x7d", 0, 52⟩]

/-- The function that the tokens spell. -/
def function : Function :=
  ⟨"f", 1, [⟨"p", .int, 8, 0, 0, some 0⟩, ⟨"a", .int, 24, 1, 2, none⟩],
    [.declare 1, .whileLoop (.var 0)
      (.expr (.assign (.var 0) (.binary .add (.constant 1) (.assign (.var 1) (.var 0)))))]⟩

end Inner

/-- The assignment in `Inner` leaves the function without code. -/
theorem listing_fails_iff_inner
    : Program.ofTokens Inner.tokens = .ok ⟨[Inner.function]⟩
      ∧ (∃ error, Program.listing ⟨[Inner.function]⟩ = .error error)
      ∧ ∀ error, Program.listing ⟨[Inner.function]⟩ = .error error →
          ∃ n ∈ Inner.function.nodes, error.Explains Inner.function n := by
  have read : Program.ofTokens Inner.tokens = .ok ⟨[Inner.function]⟩ := by with_unfolding_all rfl
  obtain ⟨fails, explained⟩ := listing_fails_iff Inner.tokens _ read
  refine ⟨read, fails.mpr ⟨Inner.function, by simp, ?_⟩, ?_⟩
  · refine ⟨.assign (.var 1) (.var 0), ?_, rfl⟩
    simp [Function.nodes, Inner.function, Stmt.exprsOf, Stmt.exprs, Expr.nodesOf, Expr.nodes]
  · intro error failed
    obtain ⟨⟨f, member, explains⟩, -⟩ := explained error failed
    obtain rfl := List.mem_singleton.mp member
    exact explains

end SlotC
