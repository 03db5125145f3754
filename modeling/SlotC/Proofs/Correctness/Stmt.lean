import SlotC.Proofs.Correctness.Expr
import SlotC.Proofs.Machine.Run
import SlotC.Proofs.Semantics.Stmt

/-! The code of statements against their meaning. A statement that goes on leaves its value
on the stack where its code ends, and one that returns comes to the end of the function with
its value in `rax`.
-/

namespace SlotC

/-- The room for the code of an expression that may be absent. -/
def roomOf (e : Option Expr) : Nat :=
  (e.map Expr.room).getD 0

mutual

/-- The most words that the code of a statement has on the stack at a time. -/
def Stmt.room : Stmt → Nat
  | .expr e | .ret e => e.room
  | .block body => max 1 (roomRest body)
  | .branch condition whenTrue whenFalse =>
    max condition.room (max whenTrue.room (match whenFalse with
      | some s => s.room
      | none => 1))
  | .whileLoop condition body => max 1 (max condition.room body.room)
  | .forLoop start condition step body =>
    max 1 (max (roomOf start) (max (roomOf condition) (max (roomOf step) body.room)))
  | .declare _ => 1

/-- The same for the statements of a block. -/
def roomRest : List Stmt → Nat
  | [] => 0
  | s :: ss => max s.room (roomRest ss)

end

/-- The test and the first branch of a conditional statement fit where the statement does. -/
theorem Stmt.room_branch (condition : Expr) (yes : Stmt) (no : Option Stmt) {room : Nat}
    (fits : (Stmt.branch condition yes no).room ≤ room)
    : condition.room ≤ room ∧ yes.room ≤ room := by
  cases no with
  | none =>
      simp only [Stmt.room] at fits
      omega
  | some s =>
      simp only [Stmt.room] at fits
      omega

/-- The same for whatever is to be run. -/
def Task.room : Task → Nat
  | .one s => s.room
  | .rest ss => roomRest ss
  | .loop condition step body =>
    max 1 (max (roomOf condition) (max (roomOf step) body.room))

/-- The lines are the code of the task. A loop leaves its zero after its last label. -/
def Task.Emits (f : Function) (g : GenState) (ls : Listing) : Task → Prop
  | .one s => ∃ g', (Emit.stmt f s).Emits g ls g' ()
  | .rest ss => ∃ g', (Emit.stmts f ss).Emits g ls g' ()
  | .loop condition step body =>
    ∃ id l₁ g', (Emit.repetition f id condition step body).Emits g l₁ g' ()
      ∧ ls = l₁ ++ [.instr (.push (.imm 0))]

/-- The value, if there is one, is in `rax`. -/
def Machine.Holds (m : Machine) (value : Option Word) : Prop :=
  ∀ word ∈ value, m.registers .rax = word

/-- The machine is where the source text is, with room below the variables. -/
structure Ready (f : Function) (base : Word) (room : Nat) (last : Option Word) (s : Store)
    (m : Machine)
    : Prop where
  agrees : Agrees f base s m
  holds : m.Holds last
  above : f.Above base (m.registers .rsp)
  fits : 8 * room ≤ (m.registers .rsp).toNat

/-- The machine goes from one line of the code to another. -/
def Goes (f : Function) (base : Word) (code : Listing) (n : Nat) (m : Machine) (n' : Nat)
    (m' : Machine)
    : Prop :=
  Config.Reaches (f.exposed base) code ⟨.line n, m⟩ ⟨.line n', m'⟩

/-- The state where a task has ended and gone on. The rest of a block has dropped all its
values.
-/
def Task.Leaves (f : Function) (base : Word) (s : Store) (value : Option Word) (m m' : Machine)
    : Task → Prop
  | .rest _ => SlotC.Leaves f base s 0 m m' ∧ m'.Holds value
  | .one _ | .loop _ _ _ => SlotC.Leaves f base s 1 m m' ∧ ∀ word ∈ value, m'.top = word

/-- The run of a task comes to the line after its code, or to the end of the function. -/
def Task.Ends (f : Function) (base : Word) (code : Listing) (n stop : Nat) (m : Machine)
    (s : Store) (task : Task)
    : Outcome → Prop
  | .next value => ∃ m', Goes f base code n m stop m' ∧ task.Leaves f base s value m m'
  | .returned value =>
    ∃ k m', code.At k Listing.epilogue ∧ Goes f base code n m k m'
      ∧ SlotC.Leaves f base s 0 m m' ∧ m'.registers .rax = value

section

variable {f : Function} {base : Word} {code ls : Listing} {room : Nat} {last value : Option Word}
  {s s' : Store} {m m₁ m₂ : Machine} {n n₁ stop : Nat}

@[simp] theorem Machine.holds_some {word : Word}
    : m.Holds (some word) ↔ m.registers .rax = word := by
  simp [Machine.Holds]

theorem Goes.trans (first : Goes f base code n m n₁ m₁) (second : Goes f base code n₁ m₁ stop m₂)
    : Goes f base code n m stop m₂ :=
  Relation.ReflTransGen.trans first second

/-- Code that leaves no value leaves the stack where it was. -/
theorem Leaves.toNat_rsp_eq (h : Leaves f base s 0 m m₁)
    : (m₁.registers .rsp).toNat = (m.registers .rsp).toNat := by
  rw [h.toNat_rsp (by omega)]
  omega

/-- After code that leaves no value the machine is as ready as before. -/
theorem Ready.after (ready : Ready f base room last s m) (leaves : Leaves f base s' 0 m m₁)
    (holds : m₁.Holds value)
    : Ready f base room value s' m₁ := by
  refine ⟨leaves.agrees, holds, leaves.above ready.above (by omega), ?_⟩
  rw [leaves.toNat_rsp_eq]
  exact ready.fits

theorem Ready.less {less : Nat} (ready : Ready f base room last s m) (le : less ≤ room)
    : Ready f base less last s m :=
  ⟨ready.agrees, ready.holds, ready.above,
    Nat.le_trans (Nat.mul_le_mul_left 8 le) ready.fits⟩

/-- What runs before a task without leaving a value may be counted to it. -/
theorem Task.Ends.after {task : Task} {o : Outcome} (goes : Goes f base code n m n₁ m₁)
    (leaves : SlotC.Leaves f base s 0 m m₁) (ends : task.Ends f base code n₁ stop m₁ s' o)
    : task.Ends f base code n stop m s' o := by
  cases o with
  | next value =>
      obtain ⟨m₂, goes', left⟩ := ends
      refine ⟨m₂, goes.trans goes', ?_⟩
      cases task with
      | rest => exact ⟨by simpa using leaves.trans left.1 (by omega), left.2⟩
      | one | loop => exact ⟨by simpa using leaves.trans left.1 (by omega), left.2⟩
  | returned value =>
      obtain ⟨k, m₂, standing, goes', left, rax⟩ := ends
      exact ⟨k, m₂, standing, goes.trans goes', by simpa using leaves.trans left (by omega), rax⟩

-----------------------------------------------------------------------------------------
-- Expressions and tests in the code
-----------------------------------------------------------------------------------------

theorem value_goes {e : Expr} {g g' : GenState} {word : Word}
    (emitted : (Emit.value f e).Emits g ls g' ()) (standing : code.At n ls)
    (evaluated : e.eval f base s = some (word, s')) (ready : Ready f base room last s m)
    (fits : e.room ≤ room)
    : ∃ m', Goes f base code n m (n + ls.length) m' ∧ Leaves f base s' 1 m m' ∧ m'.top = word := by
  obtain ⟨m', run, leaves, top⟩ := value_runs f base e emitted evaluated ready.agrees ready.above
    (ready.less fits).fits
  exact ⟨m', Config.reaches_of_run standing run, leaves, top⟩

/-- The value on top of the stack goes to `rax`. -/
theorem pop_goes (standing : code.At n [.instr (.pop .rax)]) (leaves : Leaves f base s 1 m m₁)
    : ∃ m', Goes f base code n m₁ (n + 1) m' ∧ Leaves f base s 0 m m'
        ∧ m'.registers .rax = m₁.top :=
  ⟨m₁.pop .rax, Config.reaches_of_run standing rfl,
    leaves.drop.alike ⟨rfl, rfl, rfl, rfl, rfl⟩, rfl⟩

theorem push_goes {operand : Operand} {word : Word} (standing : code.At n [.instr (.push operand)])
    (read : m₁.read? operand = some word) (leaves : Leaves f base s' 0 m m₁)
    (ready : Ready f base room last s m) (fits : 1 ≤ room)
    : ∃ m', Goes f base code n m₁ (n + 1) m' ∧ Leaves f base s' 1 m m' ∧ m'.top = word := by
  have run : m₁.run (f.exposed base) [.instr (.push operand)] = some (m₁.push word) := by
    simp [Machine.run, Machine.perform, read]
  exact ⟨_, Config.reaches_of_run standing run, leaves.push ready.above (ready.less fits).fits word⟩

/-- An expression run for its effects leaves its value in `rax`. -/
theorem effect_goes {e : Option Expr} {g g' : GenState}
    (emitted : (Emit.effect f e).Emits g ls g' ()) (standing : code.At n ls)
    (evaluated : effect? f base last s e = some (value, s'))
    (ready : Ready f base room last s m) (fits : roomOf e ≤ room)
    : ∃ m', Goes f base code n m (n + ls.length) m' ∧ Leaves f base s' 0 m m'
        ∧ m'.Holds value := by
  cases e with
  | none =>
      obtain ⟨rfl, -⟩ := Emit.emits_effect_none.mp emitted
      cases evaluated
      exact ⟨m, .refl, ready.agrees.leaves, ready.holds⟩
  | some e =>
      obtain ⟨l₁, first, rfl, -⟩ := Emit.emits_effect_some.mp emitted
      simp only [effect?, Option.map_eq_some_iff, Prod.exists, Prod.mk.injEq] at evaluated
      obtain ⟨word, _, evaluated, rfl, rfl⟩ := evaluated
      obtain ⟨before, after⟩ := Listing.at_append.mp standing
      obtain ⟨m₁, goes₁, leaves₁, top⟩ := value_goes first before evaluated ready fits
      obtain ⟨m₂, goes₂, leaves₂, rax⟩ := pop_goes after leaves₁
      rw [List.length_append, ← Nat.add_assoc]
      exact ⟨m₂, goes₁.trans goes₂, leaves₂, Machine.holds_some.mpr (rax.trans top)⟩

/-- A test goes on or to its label. -/
theorem test_goes {e : Expr} {g g' : GenState} {l : Label} {k : Nat} {passes : Bool}
    (emitted : (Emit.value f e).Emits g ls g' ())
    (standing : code.At n (ls ++ Listing.jumpIfZero l)) (target : code.line? l = some k)
    (tested : test? f base last s (some e) = some (passes, value, s'))
    (ready : Ready f base room last s m) (fits : e.room ≤ room)
    : ∃ m', Goes f base code n m
          (if passes then n + (ls ++ Listing.jumpIfZero l).length else k) m'
        ∧ Leaves f base s' 0 m m' ∧ m'.Holds value := by
  simp only [test?, Option.map_eq_some_iff, Prod.exists, Prod.mk.injEq] at tested
  obtain ⟨word, _, evaluated, rfl, rfl, rfl⟩ := tested
  obtain ⟨before, after⟩ := Listing.at_append.mp standing
  obtain ⟨m₁, goes₁, leaves₁, rfl⟩ := value_goes emitted before evaluated ready fits
  obtain ⟨m₂, alike, rax, goes₂⟩ := Config.reaches_jumpIfZero m₁ after target
  refine ⟨m₂, goes₁.trans ?_, leaves₁.drop.alike alike, Machine.holds_some.mpr rax⟩
  rw [List.length_append, ← Nat.add_assoc]
  by_cases zero : m₁.top = 0
  · rw [if_neg (by simp [zero])]
    rwa [if_pos zero] at goes₂
  · rw [if_pos (bne_iff_ne.mpr zero)]
    rwa [if_neg zero] at goes₂

/-- So does the test of a loop, if it has one. -/
theorem leaveUnless_goes {e : Option Expr} {g g' : GenState} {l : Label} {k : Nat}
    {passes : Bool} (emitted : (Emit.leaveUnless f l e).Emits g ls g' ())
    (standing : code.At n ls) (target : code.line? l = some k)
    (tested : test? f base last s e = some (passes, value, s'))
    (ready : Ready f base room last s m) (fits : roomOf e ≤ room)
    : ∃ m', Goes f base code n m (if passes then n + ls.length else k) m'
        ∧ Leaves f base s' 0 m m' ∧ m'.Holds value := by
  cases e with
  | none =>
      obtain ⟨rfl, -⟩ := Emit.emits_leaveUnless_none.mp emitted
      cases tested
      exact ⟨m, .refl, ready.agrees.leaves, ready.holds⟩
  | some e =>
      obtain ⟨l₁, first, rfl, -⟩ := Emit.emits_leaveUnless_some.mp emitted
      exact test_goes first standing target tested ready fits

-----------------------------------------------------------------------------------------
-- Forms of statements
-----------------------------------------------------------------------------------------

/-- The end of a block, which takes the value of its last statement back to the stack. -/
theorem Task.Ends.block {body : List Stmt} {o : Outcome}
    (standing : code.At stop [.instr (.push (.reg .rax))]) (ready : Ready f base room last s m)
    (fits : 1 ≤ room) (ends : (Task.rest body).Ends f base code n stop m s' o)
    : (Task.one (.block body)).Ends f base code n (stop + 1) m s' o := by
  cases o with
  | returned value => exact ends
  | next value =>
      obtain ⟨m₁, goes, leaves, holds⟩ := ends
      obtain ⟨m₂, goes', leaves', top⟩ := push_goes standing rfl leaves ready fits
      exact ⟨m₂, goes.trans goes', leaves', fun word held => top.trans (holds word held)⟩

/-- A statement that goes on to the code of the statements after it. -/
theorem Task.Ends.dropped {first : Stmt} {value : Option Word}
    (standing : code.At stop [.instr (.pop .rax)])
    (ends : (Task.one first).Ends f base code n stop m s (.next value))
    : ∃ m', Goes f base code n m (stop + 1) m' ∧ SlotC.Leaves f base s 0 m m'
        ∧ m'.Holds value := by
  obtain ⟨m₁, goes, leaves, top⟩ := ends
  obtain ⟨m₂, goes', leaves', rax⟩ := pop_goes standing leaves
  exact ⟨m₂, goes.trans goes', leaves', fun word held => rax.trans (top word held)⟩

/-- A statement that ends where the machine goes on without a change. -/
theorem Task.Ends.onward {first : Stmt} {o : Outcome} (second : Stmt)
    (ends : (Task.one first).Ends f base code n n₁ m s o)
    (goes : ∀ m', Goes f base code n₁ m' stop m')
    : (Task.one second).Ends f base code n stop m s o := by
  cases o with
  | returned value => exact ends
  | next value =>
      obtain ⟨m', goes', leaves⟩ := ends
      exact ⟨m', goes'.trans (goes m'), leaves⟩

/-- A label is passed over. -/
theorem label_goes {l : Label} (standing : code.At n [.label l]) (m : Machine)
    : Goes f base code n m (n + 1) m :=
  Config.reaches_of_run standing rfl

/-- Where the parts of a conditional statement stand. -/
structure BranchAt (code : Listing) (n id : Nat) (l₁ l₂ l₃ : Listing) (other : Nat)
    : Prop where
  test : code.At n (l₁ ++ Listing.jumpIfZero (.otherwise id))
  yes : code.At (n + (l₁ ++ Listing.jumpIfZero (.otherwise id)).length) l₂
  jump : code.At (n + (l₁ ++ Listing.jumpIfZero (.otherwise id)).length + l₂.length)
    [.instr (.jmp (.finish id))]
  otherwise : code.At other [.label (.otherwise id)]
  no : code.At (other + 1) l₃
  finish : code.At (other + 1 + l₃.length) [.label (.finish id)]
  stop : n + (Listing.branch id l₁ l₂ l₃).length = other + 1 + l₃.length + 1

theorem branchAt {id : Nat} {l₁ l₂ l₃ : Listing}
    (standing : code.At n (Listing.branch id l₁ l₂ l₃))
    : ∃ other, BranchAt code n id l₁ l₂ l₃ other := by
  have parts : Listing.branch id l₁ l₂ l₃
      = l₁ ++ Listing.jumpIfZero (.otherwise id)
        ++ (l₂ ++ ([Line.instr (.jmp (.finish id)), Line.label (.otherwise id)]
          ++ (l₃ ++ [Line.label (.finish id)]))) := by
    rw [Listing.branch, List.append_assoc]
  rw [parts] at standing
  obtain ⟨test, rest⟩ := Listing.at_append.mp standing
  obtain ⟨yes, rest⟩ := Listing.at_append.mp rest
  obtain ⟨middle, rest⟩ := Listing.at_append.mp rest
  obtain ⟨no, finish⟩ := Listing.at_append.mp rest
  obtain ⟨jump, otherwise⟩ := Listing.at_pair.mp middle
  refine ⟨_, test, yes, jump, otherwise, no, finish, ?_⟩
  simp only [parts, List.length_append, List.length_cons, List.length_nil]
  omega

/-- A conditional statement comes to the line that its test chooses: that of its first branch or
that of the label of the other one.
-/
theorem branch_tested {condition : Expr} {yes : Stmt} {no : Option Stmt} {g : GenState}
    {passes : Bool} (distinct : code.labels.Nodup)
    (emitted : (Task.one (.branch condition yes no)).Emits f g ls) (standing : code.At n ls)
    (tested : test? f base last s (some condition) = some (passes, value, s'))
    (ready : Ready f base room last s m) (fits : (Stmt.branch condition yes no).room ≤ room)
    : ∃ id l₁ l₂ l₃ other, BranchAt code n id l₁ l₂ l₃ other
        ∧ n + ls.length = other + 1 + l₃.length + 1
        ∧ (∃ g₁ g₂, (Emit.stmt f yes).Emits g₁ l₂ g₂ ())
        ∧ (∃ g₁ g₂, (Emit.alternative f no).Emits g₁ l₃ g₂ ())
        ∧ ∃ m₁, Goes f base code n m
              (if passes then n + (l₁ ++ Listing.jumpIfZero (.otherwise id)).length else other) m₁
            ∧ Leaves f base s' 0 m m₁ ∧ Ready f base room value s' m₁ := by
  obtain ⟨g', emitted⟩ := emitted
  obtain ⟨l₁, l₂, g₂, l₃, first, second, third, rfl⟩ := Emit.emits_stmt_branch.mp emitted
  obtain ⟨other, parts⟩ := branchAt standing
  obtain ⟨fitsTest, -⟩ := Stmt.room_branch _ _ _ fits
  obtain ⟨m₁, goes, leaves, holds⟩ := test_goes first parts.test
    (parts.otherwise.line?_eq distinct) tested ready fitsTest
  exact ⟨_, l₁, l₂, l₃, other, parts, parts.stop, ⟨_, _, second⟩, ⟨_, _, third⟩, m₁, goes, leaves,
    ready.after leaves holds⟩

/-- Where the parts of a loop stand, with the zero that it leaves. -/
structure LoopAt (code : Listing) (n id : Nat) (l₁ l₂ l₃ : Listing) (last : Nat)
    : Prop where
  start : code.At n [.label (.start id)]
  test : code.At (n + 1) l₁
  body : code.At (n + 1 + l₁.length) l₂
  pop : code.At (n + 1 + l₁.length + l₂.length) [.instr (.pop .rax)]
  step : code.At (n + 1 + l₁.length + l₂.length + 1) l₃
  jump : code.At (n + 1 + l₁.length + l₂.length + 1 + l₃.length) [.instr (.jmp (.start id))]
  finish : code.At last [.label (.finish id)]
  zero : code.At (last + 1) [.instr (.push (.imm 0))]
  stop : n + (Listing.repetition id l₁ l₂ l₃).length = last + 1

theorem loopAt {id : Nat} {l₁ l₂ l₃ : Listing}
    (standing : code.At n (Listing.repetition id l₁ l₂ l₃ ++ [.instr (.push (.imm 0))]))
    : ∃ last, LoopAt code n id l₁ l₂ l₃ last := by
  have parts : Listing.repetition id l₁ l₂ l₃ ++ [Line.instr (.push (.imm 0))]
      = [Line.label (.start id)] ++ (l₁ ++ (l₂ ++ ([Line.instr (.pop .rax)]
        ++ (l₃ ++ ([Line.instr (.jmp (.start id)), Line.label (.finish id)]
          ++ [Line.instr (.push (.imm 0))]))))) := by
    simp only [Listing.repetition, List.append_assoc]
  rw [parts] at standing
  obtain ⟨start, rest⟩ := Listing.at_append.mp standing
  obtain ⟨test, rest⟩ := Listing.at_append.mp rest
  obtain ⟨body, rest⟩ := Listing.at_append.mp rest
  obtain ⟨pop, rest⟩ := Listing.at_append.mp rest
  obtain ⟨step, rest⟩ := Listing.at_append.mp rest
  obtain ⟨ending, zero⟩ := Listing.at_append.mp rest
  obtain ⟨jump, finish⟩ := Listing.at_pair.mp ending
  refine ⟨_, start, test, body, pop, step, jump, finish, zero, ?_⟩
  simp only [Listing.repetition, List.length_append, List.length_cons, List.length_nil]
  omega

/-- A loop comes to the line that its test chooses: that of its body or that of its last label. -/
theorem loop_tested {condition step : Option Expr} {body : Stmt} {g : GenState} {passes : Bool}
    (distinct : code.labels.Nodup) (emitted : (Task.loop condition step body).Emits f g ls)
    (standing : code.At n ls) (tested : test? f base last s condition = some (passes, value, s'))
    (ready : Ready f base room last s m) (fits : (Task.loop condition step body).room ≤ room)
    : ∃ id l₁ l₂ l₃ ending, LoopAt code n id l₁ l₂ l₃ ending
        ∧ n + ls.length = ending + 1 + 1
        ∧ (∃ g₁ g₂, (Emit.stmt f body).Emits g₁ l₂ g₂ ())
        ∧ (∃ g₁ g₂, (Emit.effect f step).Emits g₁ l₃ g₂ ())
        ∧ ∃ m₁, Goes f base code n m (if passes then n + 1 + l₁.length else ending) m₁
            ∧ Leaves f base s' 0 m m₁ ∧ Ready f base room value s' m₁ := by
  obtain ⟨id, l, g', repeated, rfl⟩ := emitted
  obtain ⟨l₁, l₂, g₂, l₃, first, second, third, rfl, -⟩ := Emit.emits_repetition.mp repeated
  obtain ⟨ending, parts⟩ := loopAt standing
  simp only [Task.room] at fits
  obtain ⟨m₁, goes, leaves, holds⟩ := leaveUnless_goes first parts.test
    (parts.finish.line?_eq distinct) tested ready (by omega)
  refine ⟨id, l₁, l₂, l₃, ending, parts, ?_, ⟨_, _, second⟩, ⟨_, _, third⟩, m₁,
    (label_goes parts.start m).trans goes, leaves, ready.after leaves holds⟩
  rw [List.length_append, ← Nat.add_assoc, parts.stop]
  rfl

/-- Runs of the code follow runs of the source text. -/
theorem Exec.simulated {task : Task} {o : Outcome} (exec : Exec f base task last s o s')
    (distinct : code.labels.Nodup) {g : GenState} (emitted : task.Emits f g ls)
    (standing : code.At n ls) (ready : Ready f base room last s m) (fits : task.room ≤ room)
    : task.Ends f base code n (n + ls.length) m s' o := by
  induction exec generalizing g ls n m with
  | expr evaluated =>
      obtain ⟨g', emitted⟩ := emitted
      obtain ⟨m₁, goes, leaves, top⟩ := value_goes (Emit.emits_stmt_expr.mp emitted) standing
        evaluated ready fits
      exact ⟨m₁, goes, leaves, by simpa using top⟩
  | ret evaluated =>
      obtain ⟨g', emitted⟩ := emitted
      obtain ⟨l₁, first, rfl, -⟩ := Emit.emits_stmt_ret.mp emitted
      obtain ⟨before, after⟩ := Listing.at_append.mp standing
      obtain ⟨popped, ending⟩ := Listing.at_append.mp after
      obtain ⟨m₁, goes₁, leaves₁, top⟩ := value_goes first before evaluated ready fits
      obtain ⟨m₂, goes₂, leaves₂, rax⟩ := pop_goes popped leaves₁
      exact ⟨_, m₂, ending, goes₁.trans goes₂, leaves₂, rax.trans top⟩
  | declare =>
      obtain ⟨g', emitted⟩ := emitted
      obtain ⟨rfl, -⟩ := Emit.emits_stmt_declare.mp emitted
      obtain ⟨m₁, goes, leaves, top⟩ := push_goes standing rfl ready.agrees.leaves ready fits
      exact ⟨m₁, goes, leaves, by simpa using top⟩
  | block inner ih =>
      obtain ⟨g', emitted⟩ := emitted
      obtain ⟨l₁, g₁, first, rfl, -⟩ := Emit.emits_stmt_block.mp emitted
      obtain ⟨before, after⟩ := Listing.at_append.mp standing
      simp only [Task.room, Stmt.room] at fits ih
      have ends := ih ⟨_, first⟩ before ready (by omega)
      rw [List.length_append, ← Nat.add_assoc]
      exact ends.block after ready (by omega)
  | whenTrue tested inner ih =>
      obtain ⟨_, _, _, _, other, parts, stop, ⟨_, _, second⟩, -, m₁, goes, leaves, ready₁⟩ :=
        branch_tested distinct emitted standing tested ready fits
      obtain ⟨-, fitsYes⟩ := Stmt.room_branch _ _ _ fits
      have ends := ih ⟨_, second⟩ parts.yes ready₁ fitsYes
      rw [stop]
      refine .after goes leaves (ends.onward _ fun m' => ?_)
      exact Goes.trans (Config.reaches_jmp parts.jump (parts.finish.line?_eq distinct))
        (label_goes parts.finish m')
  | whenFalse tested inner ih =>
      obtain ⟨_, _, _, _, other, parts, stop, -, ⟨_, _, third⟩, m₁, goes, leaves, ready₁⟩ :=
        branch_tested distinct emitted standing tested ready fits
      simp only [Task.room, Stmt.room] at fits ih
      have ends := ih ⟨_, third⟩ parts.no ready₁ (by omega)
      rw [stop]
      exact .after (goes.trans (label_goes parts.otherwise m₁)) leaves
        (ends.onward _ (label_goes parts.finish))
  | skip tested =>
      obtain ⟨_, _, _, _, other, parts, stop, -, ⟨_, _, third⟩, m₁, goes, leaves, -⟩ :=
        branch_tested distinct emitted standing tested ready fits
      simp only [Task.room, Stmt.room] at fits
      obtain ⟨rfl, -⟩ := Emit.emits_push.mp third
      obtain ⟨m₂, goes', leaves', top⟩ := push_goes parts.no rfl leaves ready (by omega)
      rw [stop]
      exact ⟨m₂, (goes.trans (label_goes parts.otherwise m₁)).trans
        (goes'.trans (label_goes parts.finish m₂)), leaves', by simpa using top⟩
  | whileLoop inner ih =>
      obtain ⟨g', emitted⟩ := emitted
      rw [Emit.stmt_whileLoop_eq] at emitted
      obtain ⟨l₀, l, g₁, zeroth, repeated, rfl, -⟩ := Emit.emits_stmt_forLoop.mp emitted
      obtain ⟨rfl, -⟩ := Emit.emits_effect_none.mp zeroth
      exact ih ⟨_, l, g₁, repeated, rfl⟩ standing ready
        (Nat.le_trans (by simp [Task.room, Stmt.room, roomOf]) fits)
  | forLoop started inner ih =>
      obtain ⟨g', emitted⟩ := emitted
      obtain ⟨l₀, l, g₁, zeroth, repeated, rfl, -⟩ := Emit.emits_stmt_forLoop.mp emitted
      obtain ⟨before, after⟩ := Listing.at_append.mp standing
      simp only [Task.room, Stmt.room] at fits ih
      obtain ⟨m₁, goes, leaves, holds⟩ := effect_goes zeroth before started ready (by omega)
      have ends := ih ⟨_, l, g₁, repeated, rfl⟩ after (ready.after leaves holds) (by omega)
      rw [List.length_append, ← Nat.add_assoc]
      exact ends.after goes leaves
  | stop tested =>
      obtain ⟨_, _, _, _, ending, parts, stop, -, -, m₁, goes, leaves, -⟩ :=
        loop_tested distinct emitted standing tested ready fits
      simp only [Task.room] at fits
      obtain ⟨m₂, goes', leaves', top⟩ := push_goes parts.zero rfl leaves ready (by omega)
      rw [stop]
      exact ⟨m₂, goes.trans ((label_goes parts.finish m₁).trans goes'), leaves',
        by simpa using top⟩
  | again tested once stepped more ihOnce ihMore =>
      -- the jump leads back to the first line of the loop, where its code stands again
      obtain ⟨_, _, _, _, _, parts, -, ⟨_, _, second⟩, ⟨_, _, third⟩, m₁, goes₁, leaves₁, ready₁⟩ :=
        loop_tested distinct emitted standing tested ready fits
      have rooms := fits
      simp only [Task.room] at rooms ihOnce
      obtain ⟨m₂, goes₂, leaves₂, holds₂⟩ :=
        (ihOnce ⟨_, second⟩ parts.body ready₁ (by omega)).dropped parts.pop
      have ready₂ := ready₁.after leaves₂ holds₂
      obtain ⟨m₃, goes₃, leaves₃, holds₃⟩ := effect_goes third parts.step stepped ready₂
        (by omega)
      have back : Goes f base code _ m₃ n m₃ :=
        Config.reaches_jmp parts.jump (parts.start.line?_eq distinct)
      have ends := ihMore emitted standing (ready₂.after leaves₃ holds₃) fits
      exact .after goes₁ leaves₁ (.after goes₂ leaves₂ (.after (goes₃.trans back) leaves₃ ends))
  | leave tested once ih =>
      obtain ⟨_, _, _, _, _, parts, -, ⟨_, _, second⟩, -, m₁, goes, leaves, ready₁⟩ :=
        loop_tested distinct emitted standing tested ready fits
      simp only [Task.room] at fits ih
      exact .after goes leaves (ih ⟨_, second⟩ parts.body ready₁ (by omega))
  | nil =>
      obtain ⟨g', emitted⟩ := emitted
      obtain ⟨rfl, -⟩ := Emit.emits_stmts_nil.mp emitted
      exact ⟨m, .refl, ready.agrees.leaves, ready.holds⟩
  | cons head tail ihHead ihTail =>
      obtain ⟨g', emitted⟩ := emitted
      obtain ⟨l₁, g₁, l₂, first, second, rfl⟩ := Emit.emits_stmts_cons.mp emitted
      obtain ⟨before, after⟩ := Listing.at_append.mp standing
      obtain ⟨popped, rest⟩ := Listing.at_append.mp after
      simp only [Task.room, roomRest] at fits ihHead ihTail
      obtain ⟨m₁, goes, leaves, holds⟩ := (ihHead ⟨_, first⟩ before ready (by omega)).dropped popped
      have ends := ihTail ⟨_, second⟩ rest (ready.after leaves holds) (by omega)
      have stop : n + (l₁ ++ ([Line.instr (.pop .rax)] ++ l₂)).length
          = n + l₁.length + 1 + l₂.length := by
        simp only [List.length_append, List.length_singleton]
        omega
      rw [stop]
      exact ends.after goes leaves
  | cut head ih =>
      obtain ⟨g', emitted⟩ := emitted
      obtain ⟨l₁, g₁, l₂, first, second, rfl⟩ := Emit.emits_stmts_cons.mp emitted
      obtain ⟨before, after⟩ := Listing.at_append.mp standing
      simp only [Task.room, roomRest] at fits ih
      exact ih ⟨_, first⟩ before ready (by omega)

end

end SlotC
