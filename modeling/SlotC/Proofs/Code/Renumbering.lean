import SlotC.Proofs.Code.Function
import SlotC.Proofs.Frame.Renaming

/-! Code with later labels and other names for variables. Code generation that starts with a
later label does the same as before, only with later labels, whether it succeeds or fails; the
names of variables stand in errors only.
-/

namespace SlotC

/-- The label with a number that is `k` later. -/
def Label.later (k : Nat) : Label → Label
  | .symbol name => .symbol name
  | .otherwise id => .otherwise (id + k)
  | .finish id => .finish (id + k)
  | .start id => .start (id + k)

/-- The instruction with a later label, if it jumps. -/
def Instr.later (k : Nat) : Instr → Instr
  | .jmp l => .jmp (l.later k)
  | .jmpIf condition l => .jmpIf condition (l.later k)
  | i => i

/-- The line with later labels. -/
def Line.later (k : Nat) : Line → Line
  | .label l => .label (l.later k)
  | .instr i => .instr (i.later k)
  | .directive d => .directive d

/-- The lines with later labels. -/
def Listing.later (k : Nat) (ls : Listing) : Listing :=
  ls.map (Line.later k)

@[simp] theorem Listing.later_append (k : Nat) (first second : Listing)
    : later k (first ++ second) = first.later k ++ second.later k :=
  List.map_append

theorem Label.later_zero (l : Label) : l.later 0 = l := by
  cases l <;> rfl

theorem Line.later_zero (line : Line) : line.later 0 = line := by
  cases line with
  | directive => rfl
  | label l => rw [Line.later, l.later_zero]
  | instr i => cases i <;> simp [Line.later, Instr.later, Label.later_zero]

theorem Listing.later_zero (ls : Listing) : ls.later 0 = ls :=
  List.map_id'' Line.later_zero ls

/-- The state with a later label. -/
def GenState.later (k : Nat) (g : GenState) : GenState :=
  ⟨g.nextLabel + k, g.depth⟩

/-- The error with other names for variables. -/
def CodeError.rename (r : String → String) : CodeError → CodeError
  | .assignToArray name => .assignToArray (r name)
  | .noRegister param => .noRegister (r param)
  | error => error

/-- An error keeps its names if no name is changed. -/
theorem CodeError.mapError_rename_id {α : Type} (outcome : Except CodeError α)
    : outcome.mapError (rename id) = outcome := by
  rcases outcome with error | a
  · cases error <;> rfl
  · rfl

/-- What an emission did, with later labels and other names for variables. -/
def Emission.later {α : Type} (k : Nat) (r : String → String) (e : Emission α) : Emission α :=
  ⟨e.lines.later k, e.state.later k, e.outcome.mapError (CodeError.rename r)⟩

namespace Emit

/-- From a state with a later label, the second emission does what the first does, with later
labels and other names for variables.
-/
def Later {α : Type} (k : Nat) (r : String → String) (x y : Emit α) : Prop :=
  ∀ g : GenState, y (g.later k) = (x g).later k r

section

variable {α β : Type} {k : Nat} {r : String → String} {f : Function}

theorem Later.bind {x x' : Emit α} {m m' : α → Emit β} (first : Later k r x x')
    (next : ∀ a, Later k r (m a) (m' a))
    : Later k r (x >>= m) (x' >>= m') := by
  intro g
  have first' : x' (g.later k) = (x g).later k r := first g
  rcases step : x g with ⟨l, g₁, error | a⟩
  · rw [step] at first'
    rw [bind_error step, bind_error first']
    rfl
  · rw [step] at first'
    have second : m' a (g₁.later k) = (m a g₁).later k r := next a g₁
    rw [bind_ok step, bind_ok first', second]
    simp only [Emission.later, Emission.behind, Listing.later_append]

/-- A label that is taken is later too. -/
theorem Later.freshLabel_bind {m m' : Nat → Emit β}
    (next : ∀ id, Later k r (m id) (m' (id + k)))
    : Later k r (freshLabel >>= m) (freshLabel >>= m') := by
  intro g
  have taken : (⟨g.nextLabel + k + 1, g.depth⟩ : GenState)
      = GenState.later k ⟨g.nextLabel + 1, g.depth⟩ := by
    rw [GenState.later, Nat.add_right_comm]
  show m' (g.nextLabel + k) ⟨g.nextLabel + k + 1, g.depth⟩
    = (m g.nextLabel ⟨g.nextLabel + 1, g.depth⟩).later k r
  rw [taken, next g.nextLabel]

theorem later_pure {a : α} : Later k r (pure a) (pure a) :=
  fun _ => rfl

theorem later_fail {error : CodeError}
    : Later k r (fail error : Emit α) (fail (error.rename r)) :=
  fun _ => rfl

theorem later_lines {ls : Listing} : Later k r (lines ls) (lines (ls.later k)) :=
  fun _ => rfl

theorem later_shiftDepth {change : Int} : Later k r (shiftDepth change) (shiftDepth change) :=
  fun _ => rfl

theorem later_depth : Later k r depth depth :=
  fun _ => rfl

theorem later_setDepth {d : Int} : Later k r (setDepth d) (setDepth d) :=
  fun _ => rfl

theorem later_push {operand : Operand} : Later k r (push operand) (push operand) :=
  fun _ => rfl

theorem later_pop {register : Register} : Later k r (pop register) (pop register) :=
  fun _ => rfl

theorem later_jumpIfZero {l : Label} : Later k r (jumpIfZero l) (jumpIfZero (l.later k)) :=
  fun _ => rfl

-----------------------------------------------------------------------------------------
-- Expressions
-----------------------------------------------------------------------------------------

/-- A variable is the same under its other name. -/
theorem Later.variableOf_bind {id : Nat} {m m' : Variable → Emit β}
    (next : ∀ v, Later k r (m v) (m' (v.rename r)))
    : Later k r (variableOf f id >>= m) (variableOf (f.rename r) id >>= m') := by
  unfold variableOf
  rw [f.get?_rename]
  cases f.get? id with
  | some v => exact next v
  | none => exact fun _ => rfl

theorem pointerStep?_rename (op : BinaryOp) (e : Expr)
    : pointerStep? (f.rename r) op e = pointerStep? f op e := by
  cases e with
  | var id =>
      rw [pointerStep?, pointerStep?, f.get?_rename, Option.filter_map, Option.map_map]
      rfl
  | _ => rfl

theorem later_address {v : Variable} : Later k r (address v) (address (v.rename r)) :=
  fun _ => rfl

theorem later_constant {value : Int64} : Later k r (constant value) (constant value) := by
  unfold constant
  split
  · exact later_push
  · exact fun _ => rfl

theorem later_checkTarget {e : Expr}
    : Later k r (checkTarget f e) (checkTarget (f.rename r) e) := by
  cases e with
  | var id =>
      refine .variableOf_bind fun v => ?_
      show Later k r (if v.isArray then _ else _) (if v.isArray then _ else _)
      split
      · exact later_fail
      · exact later_pure
  | _ => exact later_pure

theorem later_operate {op : BinaryOp} {step : Option Nat}
    : Later k r (operate op step) (operate op step) := by
  cases op <;> cases step <;> exact fun _ => rfl

theorem later_callWith {name : String} {count : Nat}
    : Later k r (callWith name count) (callWith name count) := by
  have pops (registers : List Register) : Later k r (popAll registers) (popAll registers) := by
    induction registers with
    | nil => exact later_pure
    | cons register registers ih => exact later_pop.bind fun _ => ih
  have call : Later k r (alignedCall name) (alignedCall name) := by
    refine later_depth.bind fun depth => ?_
    dsimp only
    split
    · exact later_lines
    · exact later_lines
  exact (pops _).bind fun _ => call.bind fun _ => later_push

mutual

/-- The code of an expression depends neither on the next label nor on names. -/
theorem later_value (e : Expr) : Later k r (value f e) (value (f.rename r) e) := by
  cases e with
  | constant number =>
      rw [value, value]
      exact later_constant
  | var id =>
      rw [value, value]
      refine .variableOf_bind fun v => later_address.bind fun _ => ?_
      show Later k r (if v.isArray then _ else _) (if v.isArray then _ else _)
      split
      · exact later_pure
      · exact fun _ => rfl
  | binary op left right =>
      rw [value, value, pointerStep?_rename]
      exact (later_value left).bind fun _ => (later_value right).bind fun _ => later_operate
  | assign target source =>
      rw [value, value]
      exact later_checkTarget.bind fun _ => (later_place target).bind fun _ =>
        (later_value source).bind fun _ => fun _ => rfl
  | addressOf operand =>
      rw [value, value]
      exact later_place operand
  | deref operand =>
      rw [value, value]
      exact (later_value operand).bind fun _ => fun _ => rfl
  | call name arguments =>
      rw [value, value]
      split
      · exact later_fail
      · exact (later_values arguments).bind fun _ => later_callWith

/-- Nor does the code of a place. -/
theorem later_place (e : Expr) : Later k r (place f e) (place (f.rename r) e) := by
  cases e with
  | var id =>
      rw [place, place]
      exact .variableOf_bind fun v => later_address
  | deref operand =>
      rw [place, place]
      exact later_value operand
  | constant | binary | assign | addressOf | call =>
      rw [place, place]
      · exact later_fail
      all_goals nofun

/-- Nor does the code of several expressions. -/
theorem later_values (es : List Expr) : Later k r (values f es) (values (f.rename r) es) := by
  cases es with
  | nil =>
      rw [values]
      exact later_pure
  | cons e es =>
      rw [values, values]
      exact (later_value e).bind fun _ => later_values es

end

-----------------------------------------------------------------------------------------
-- Statements
-----------------------------------------------------------------------------------------

theorem later_effect (e : Option Expr) : Later k r (effect f e) (effect (f.rename r) e) := by
  cases e with
  | none => exact later_pure
  | some e => exact (later_value e).bind fun _ => later_pop

theorem later_leaveUnless (l : Label) (e : Option Expr)
    : Later k r (leaveUnless f l e) (leaveUnless (f.rename r) (l.later k) e) := by
  cases e with
  | none => exact later_pure
  | some e => exact (later_value e).bind fun _ => later_jumpIfZero

/-- The code of a loop has later labels if that of its body has. -/
theorem later_forLoop {start condition step : Option Expr} {body : Stmt}
    (inner : Later k r (stmt f body) (stmt (f.rename r) body))
    : Later k r (stmt f (.forLoop start condition step body))
        (stmt (f.rename r) (.forLoop start condition step body)) := by
  rw [stmt, stmt]
  refine Later.freshLabel_bind fun id => (later_effect start).bind fun _ => ?_
  refine later_lines.bind fun _ => (later_leaveUnless (.finish id) condition).bind fun _ => ?_
  refine inner.bind fun _ => later_pop.bind fun _ => (later_effect step).bind fun _ => ?_
  exact later_lines.bind fun _ => later_lines.bind fun _ => later_push

mutual

/-- The code of a statement has later labels if it starts with one. -/
theorem later_stmt (s : Stmt) : Later k r (stmt f s) (stmt (f.rename r) s) := by
  cases s with
  | expr e =>
      rw [stmt, stmt]
      exact later_value e
  | block body =>
      rw [stmt, stmt]
      exact (later_stmts body).bind fun _ => later_push
  | branch condition whenTrue whenFalse =>
      rw [stmt_branch_eq, stmt_branch_eq]
      refine Later.freshLabel_bind fun id => (later_value condition).bind fun _ => ?_
      refine later_jumpIfZero.bind fun _ => later_depth.bind fun entry => ?_
      refine (later_stmt whenTrue).bind fun _ => later_lines.bind fun _ => ?_
      refine later_lines.bind fun _ => later_setDepth.bind fun _ => ?_
      refine Later.bind ?_ fun _ => later_lines
      cases whenFalse with
      | none => exact later_push
      | some s => exact later_stmt s
  | whileLoop condition body =>
      rw [stmt_whileLoop_eq, stmt_whileLoop_eq]
      exact later_forLoop (later_stmt body)
  | forLoop start condition step body => exact later_forLoop (later_stmt body)
  | ret e =>
      rw [stmt, stmt]
      exact (later_value e).bind fun _ => later_pop.bind fun _ => later_lines.bind fun _ =>
        later_shiftDepth
  | declare id =>
      rw [stmt, stmt]
      exact later_push

/-- So has the code of statements. -/
theorem later_stmts (ss : List Stmt) : Later k r (stmts f ss) (stmts (f.rename r) ss) := by
  cases ss with
  | nil =>
      rw [stmts]
      exact later_pure
  | cons s ss =>
      rw [stmts, stmts]
      exact (later_stmt s).bind fun _ => later_pop.bind fun _ => later_stmts ss

end

-----------------------------------------------------------------------------------------
-- Functions
-----------------------------------------------------------------------------------------

theorem later_spill (vs : List Variable)
    : Later k r (spill vs) (spill (vs.map (Variable.rename r))) := by
  induction vs with
  | nil => exact later_pure
  | cons v vs ih =>
      rw [List.map_cons, spill, spill]
      dsimp only [Variable.rename]
      cases v.argIndex.bind fun index => Register.forArguments[index]? with
      | some register => exact later_lines.bind fun _ => ih
      | none => exact later_fail

theorem later_body : Later k r (body f) (body (f.rename r)) := by
  refine (later_stmts f.body).bind fun _ => later_lines.bind fun _ => ?_
  refine later_depth.bind fun depth => ?_
  show Later k r (if depth = 0 then _ else _) (if depth = 0 then _ else _)
  split
  · exact later_pure
  · exact later_fail

/-- The head of a function has no labels but its name. -/
theorem later_prologue {name : String} {frame : Int}
    : Later k r (prologue name frame) (prologue name frame) := by
  refine later_lines.bind fun _ => ?_
  split
  · exact later_lines
  · exact later_pure

/-- The code of a function has later labels if it starts with one. -/
theorem later_function (f : Function) : Later k r (function f) (function (f.rename r)) := by
  have frame : (f.rename r).frame = f.frame := congrArg roundUp16 (f.frameSize_rename r)
  rw [function_eq, function_eq, f.params_rename, frame]
  split
  · exact later_prologue.bind fun _ => (later_spill _).bind fun _ => later_setDepth.bind fun _ =>
      later_body
  · exact later_fail

/-- So has the code of functions, whatever their variables are named. -/
theorem later_renamed (fs : List Function)
    : Later k r (functions fs) (functions (fs.map (Function.rename r))) := by
  induction fs with
  | nil => exact later_pure
  | cons f fs ih => exact (later_function f).bind fun _ => ih

/-- Without other names, only the labels change. -/
theorem later_functions (fs : List Function) : Later k id (functions fs) (functions fs) := by
  have renamed : Later k id _ _ := later_renamed fs
  rwa [Function.map_rename_id] at renamed

end

end Emit

end SlotC
