import SlotC.Proofs.Semantics.Expr

/-! The meaning of statements and functions. A statement goes on to the next one with a
value, or returns from the function with one. Where the body of a function ends without a
return, the function returns the value of its last statement.
-/

namespace SlotC

/-- How a statement ends. A block at the very start of a function may have no value. -/
inductive Outcome where
  | next (value : Option Word)
  | returned (value : Word)
deriving DecidableEq, Repr

/-- The value of a function whose body ends so, if it has one. -/
def Outcome.result : Outcome → Option Word
  | .next value => value
  | .returned value => some value

/-- What is to be run: a statement, the rest of a block, or a loop from its test on. -/
inductive Task where
  | one (s : Stmt)
  | rest (ss : List Stmt)
  | loop (condition step : Option Expr) (body : Stmt)

/-- Evaluates an expression for its effects, if it is there. The value computed last is then
that of the expression.
-/
def effect? (f : Function) (base : Word) (last : Option Word) (s : Store)
    : Option Expr → Option (Option Word × Store)
  | none => some (last, s)
  | some e => (e.eval f base s).map fun (value, s) => (some value, s)

/-- The test of a loop or conditional statement: whether it holds, as it does if it is
absent, and the value computed last.
-/
def test? (f : Function) (base : Word) (last : Option Word) (s : Store)
    : Option Expr → Option (Bool × Option Word × Store)
  | none => some (true, last, s)
  | some e => (e.eval f base s).map fun (value, s) => (value != 0, some value, s)

/-- Runs of statements that end. A run starts with the value computed last, which is what a
block without statements has as its value.
-/
inductive Exec (f : Function) (base : Word)
    : Task → Option Word → Store → Outcome → Store → Prop where
  | expr {e : Expr} {last : Option Word} {s s' : Store} {value : Word}
      (evaluated : e.eval f base s = some (value, s'))
      : Exec f base (.one (.expr e)) last s (.next (some value)) s'
  | ret {e : Expr} {last : Option Word} {s s' : Store} {value : Word}
      (evaluated : e.eval f base s = some (value, s'))
      : Exec f base (.one (.ret e)) last s (.returned value) s'
  | declare {id : Nat} {last : Option Word} {s : Store}
      : Exec f base (.one (.declare id)) last s (.next (some 0)) s
  | block {body : List Stmt} {last : Option Word} {s s' : Store} {o : Outcome}
      (inner : Exec f base (.rest body) last s o s')
      : Exec f base (.one (.block body)) last s o s'
  | whenTrue {condition : Expr} {yes : Stmt} {no : Option Stmt} {last value : Option Word}
      {s s₁ s' : Store} {o : Outcome}
      (tested : test? f base last s (some condition) = some (true, value, s₁))
      (inner : Exec f base (.one yes) value s₁ o s')
      : Exec f base (.one (.branch condition yes no)) last s o s'
  | whenFalse {condition : Expr} {yes no : Stmt} {last value : Option Word}
      {s s₁ s' : Store} {o : Outcome}
      (tested : test? f base last s (some condition) = some (false, value, s₁))
      (inner : Exec f base (.one no) value s₁ o s')
      : Exec f base (.one (.branch condition yes (some no))) last s o s'
  | skip {condition : Expr} {yes : Stmt} {last value : Option Word} {s s' : Store}
      (tested : test? f base last s (some condition) = some (false, value, s'))
      : Exec f base (.one (.branch condition yes none)) last s (.next (some 0)) s'
  | whileLoop {condition : Expr} {body : Stmt} {last : Option Word} {s s' : Store}
      {o : Outcome} (inner : Exec f base (.loop (some condition) none body) last s o s')
      : Exec f base (.one (.whileLoop condition body)) last s o s'
  | forLoop {start condition step : Option Expr} {body : Stmt} {last first : Option Word}
      {s s₁ s' : Store} {o : Outcome} (started : effect? f base last s start = some (first, s₁))
      (inner : Exec f base (.loop condition step body) first s₁ o s')
      : Exec f base (.one (.forLoop start condition step body)) last s o s'
  | stop {condition step : Option Expr} {body : Stmt} {last value : Option Word}
      {s s' : Store} (tested : test? f base last s condition = some (false, value, s'))
      : Exec f base (.loop condition step body) last s (.next (some 0)) s'
  | again {condition step : Option Expr} {body : Stmt} {last value done after : Option Word}
      {s s₁ s₂ s₃ s' : Store} {o : Outcome}
      (tested : test? f base last s condition = some (true, value, s₁))
      (once : Exec f base (.one body) value s₁ (.next done) s₂)
      (stepped : effect? f base done s₂ step = some (after, s₃))
      (more : Exec f base (.loop condition step body) after s₃ o s')
      : Exec f base (.loop condition step body) last s o s'
  | leave {condition step : Option Expr} {body : Stmt} {last value : Option Word}
      {s s₁ s' : Store} {result : Word}
      (tested : test? f base last s condition = some (true, value, s₁))
      (once : Exec f base (.one body) value s₁ (.returned result) s')
      : Exec f base (.loop condition step body) last s (.returned result) s'
  | nil {last : Option Word} {s : Store} : Exec f base (.rest []) last s (.next last) s
  | cons {first : Stmt} {ss : List Stmt} {last value : Option Word} {s s₁ s' : Store}
      {o : Outcome} (head : Exec f base (.one first) last s (.next value) s₁)
      (tail : Exec f base (.rest ss) value s₁ o s')
      : Exec f base (.rest (first :: ss)) last s o s'
  | cut {first : Stmt} {ss : List Stmt} {last : Option Word} {s s' : Store} {result : Word}
      (head : Exec f base (.one first) last s (.returned result) s')
      : Exec f base (.rest (first :: ss)) last s (.returned result) s'

/-- Memory with words stored in variables. -/
def stored (base : Word) (values : List (Variable × Word)) (memory : Memory) : Memory :=
  values.foldl (fun memory (v, word) => memory.writeWord (v.address base) word) memory

/-- The memory of a function that was just called: its parameters, which are the first of
its variables, hold the arguments.
-/
def Function.passed (f : Function) (base : Word) (arguments : List Word) (memory : Memory)
    : Memory :=
  stored base (f.locals.zip arguments) memory

/-- The function, called with the arguments, ends with the result, if it has one, and leaves
the store.
-/
def Function.Runs (f : Function) (base : Word) (arguments : List Word) (s : Store)
    (result : Option Word) (s' : Store)
    : Prop :=
  ∃ o, Exec f base (.rest f.body) none { s with memory := f.passed base arguments s.memory } o s'
    ∧ result = o.result

end SlotC
