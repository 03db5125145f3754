import SlotC.Proofs.Code.Function

/-! The height of the stack along the control flow of code. Each line of a function gets a
height from the lines before it and from the labels, and no path through the function can
come to the line with another height.
-/

namespace SlotC

/-- Whether control may pass from the line to the next one. -/
def Line.fallsThrough : Line → Bool
  | .instr (.jmp _) | .instr .ret => false
  | _ => true

/-- The words by which the line raises the stack. -/
def Line.rise : Line → Int
  | .instr i => i.rise
  | _ => 0

/-- The line that gives up the frame at the end of a function. -/
def Line.leaveFrame : Line :=
  .instr (.mov (.reg .rsp) (.reg .rbp))

namespace Listing

/-- Control may pass from one line to the other: to the next line, or by a jump to any line
with its label.
-/
inductive Edge (code : Listing) : Nat → Nat → Prop where
  | next {n : Nat} {line : Line} (here : code[n]? = some line) (through : line.fallsThrough)
      : Edge code n (n + 1)
  | jmp {n k : Nat} {l : Label} (here : code[n]? = some (.instr (.jmp l)))
      (target : code[k]? = some (.label l))
      : Edge code n k
  | jmpIf {n k : Nat} {condition : Condition} {l : Label}
      (here : code[n]? = some (.instr (.jmpIf condition l)))
      (target : code[k]? = some (.label l))
      : Edge code n k

/-- Some path from the first line, where the height is zero, comes to the line with the
height. Paths end where the frame is given up.
-/
inductive HeightAt (code : Listing) (first : Nat) : Nat → Int → Prop where
  | start : HeightAt code first first 0
  | step {n k : Nat} {height : Int} {line : Line} (before : HeightAt code first n height)
      (here : code[n]? = some line) (inside : line ≠ .leaveFrame) (edge : code.Edge n k)
      : HeightAt code first k (height + line.rise)

end Listing

-----------------------------------------------------------------------------------------
-- Heights of lines
-----------------------------------------------------------------------------------------

/-- The heights before and after the line fit, if every label has its given height. There is
no height once the frame is given up, and then the function only returns.
-/
def Line.Fits (heightOf : Label → Int) : Option Int → Line → Option Int → Prop
  | low, .label l, high => low = some (heightOf l) ∧ high = low
  | none, line, high => line = .instr (.pop .rbp) ∧ high = none ∨ line = .instr .ret
  | some _, .instr (.mov (.reg .rsp) (.reg .rbp)), high => high = none
  | some low, .instr (.jmp l), _ => heightOf l = low ∧ l.id?.isSome
  | some low, .instr (.jmpIf _ l), high => heightOf l = low ∧ l.id?.isSome ∧ high = some low
  | some low, .instr i, high =>
    i.isPlain ∧ (i.isCall → low % 2 = 0) ∧ 0 ≤ low + i.rise ∧ high = some (low + i.rise)
  | some _, .directive _, _ => False

/-- The heights before and after the lines fit. -/
def Listing.Typed (heightOf : Label → Int) : Option Int → Listing → Option Int → Prop
  | low, [], high => low = high
  | low, line :: ls, high => ∃ middle, line.Fits heightOf low middle ∧ Typed heightOf middle ls high

namespace Listing

variable {heightOf : Label → Int} {low middle high : Option Int} {first second ls : Listing}

theorem Typed.append (left : Typed heightOf low first middle)
    (right : Typed heightOf middle second high)
    : Typed heightOf low (first ++ second) high := by
  induction first generalizing low with
  | nil =>
      cases left
      exact right
  | cons line first ih =>
      obtain ⟨next, fits, rest⟩ := left
      exact ⟨next, fits, ih rest⟩

theorem typed_single {line : Line} (fits : line.Fits heightOf low high)
    : Typed heightOf low [line] high :=
  ⟨high, fits, rfl⟩

/-- Lines that fit give every line of them a height. -/
theorem Typed.heights (typed : Typed heightOf low ls high)
    : ∃ height : Nat → Option Int, height 0 = low
        ∧ ∀ (i : Nat) (line : Line), ls[i]? = some line
            → line.Fits heightOf (height i) (height (i + 1)) := by
  induction ls generalizing low with
  | nil => exact ⟨fun _ => low, rfl, by simp⟩
  | cons line ls ih =>
      obtain ⟨next, fits, rest⟩ := typed
      obtain ⟨height, start, later⟩ := ih rest
      refine ⟨fun i => Nat.casesOn (motive := fun _ => Option Int) i low height, rfl, ?_⟩
      intro i line' here
      cases i with
      | zero =>
          rw [List.getElem?_cons_zero, Option.some.injEq] at here
          subst here
          show line.Fits heightOf low (height 0)
          rw [start]
          exact fits
      | succ i => exact later i line' here

end Listing

/-- Plain instructions fit. -/
theorem Line.fits_plain {heightOf : Label → Int} {low : Int} {i : Instr} (plain : i.isPlain)
    (even : i.isCall → low % 2 = 0) (above : 0 ≤ low + i.rise)
    : Line.Fits heightOf (some low) (.instr i) (some (low + i.rise)) := by
  unfold Line.Fits
  split
  all_goals simp_all [Instr.isPlain, Register.isFrame]

/-- A line that control passes through raises the stack as far as it says. -/
theorem Line.Fits.through {heightOf : Label → Int} {low : Int} {line : Line} {high : Option Int}
    (fits : line.Fits heightOf (some low) high) (through : line.fallsThrough)
    (stays : line ≠ .leaveFrame) (positive : 0 ≤ low)
    : high = some (low + line.rise) ∧ 0 ≤ low + line.rise := by
  cases line with
  | directive => exact fits.elim
  | label l =>
      obtain ⟨-, rfl⟩ := fits
      simpa [Line.rise] using positive
  | instr i =>
      unfold Line.Fits at fits
      split at fits
      all_goals simp_all [Line.fallsThrough, Line.leaveFrame, Line.rise, Instr.rise]

/-- So do the lines of expressions. -/
theorem Straight.typed {heightOf : Label → Int} {floor low high : Int} {ls : Listing}
    (straight : Straight floor low ls high) (positive : 0 ≤ floor)
    : Listing.Typed heightOf (some low) ls (some high) := by
  induction ls generalizing low with
  | nil => exact congrArg some straight
  | cons line ls ih =>
      cases line with
      | instr i =>
          obtain ⟨plain, even, above, rest⟩ := straight
          exact ⟨_, Line.fits_plain plain even (Int.le_trans positive above), ih rest⟩
      | directive | label => exact straight.elim

/-- The labels of the lines have heights with which the lines fit. -/
def Flows (low : Int) (ls : Listing) (high : Int) : Prop :=
  ∃ table : List (Label × Int), table.map Prod.fst = ls.labels
    ∧ ∀ heightOf : Label → Int, (∀ p ∈ table, heightOf p.1 = p.2)
        → ls.Typed heightOf (some low) (some high)

namespace Flows

variable {low middle high : Int} {first second ls : Listing}

theorem of_straight {floor : Int} (straight : Straight floor low ls high) (positive : 0 ≤ floor)
    : Flows low ls high :=
  ⟨[], straight.labels_eq_nil.symm, fun _ _ => straight.typed positive⟩

theorem append (left : Flows low first middle) (right : Flows middle second high)
    : Flows low (first ++ second) high := by
  obtain ⟨table, labels, typed⟩ := left
  obtain ⟨table', labels', typed'⟩ := right
  refine ⟨table ++ table', by rw [List.map_append, labels, labels', Listing.labels_append], ?_⟩
  intro heightOf given
  exact (typed heightOf fun p member => given p (List.mem_append_left _ member)).append
    (typed' heightOf fun p member => given p (List.mem_append_right _ member))

/-- Different labels can be given any heights. -/
theorem typed (flows : Flows low ls high) (distinct : ls.labels.Nodup)
    : ∃ heightOf, ls.Typed heightOf (some low) (some high) := by
  obtain ⟨table, labels, typed⟩ := flows
  have given : ∃ heightOf : Label → Int, ∀ p ∈ table, heightOf p.1 = p.2 := by
    rw [← labels] at distinct
    clear labels typed
    induction table with
    | nil => exact ⟨fun _ => 0, by simp⟩
    | cons p table ih =>
        obtain ⟨new, distinct⟩ := List.nodup_cons.mp distinct
        obtain ⟨heightOf, given⟩ := ih distinct
        refine ⟨fun l => if l = p.1 then p.2 else heightOf l, ?_⟩
        refine List.forall_mem_cons.mpr ⟨if_pos rfl, ?_⟩
        intro q member
        have other : q.1 ≠ p.1 := fun same => new (same ▸ List.mem_map_of_mem member)
        exact (if_neg other).trans (given q member)
  obtain ⟨heightOf, given⟩ := given
  exact ⟨heightOf, typed heightOf given⟩

end Flows

namespace Emit

variable {f : Function} {g g' : GenState} {ls : Listing} {heightOf : Label → Int}

/-- One push. -/
theorem push_straight {floor low : Int} (operand : Operand) (above : floor ≤ low)
    : Straight floor low [.instr (.push operand)] (low + 1) :=
  ⟨rfl, by simp [Instr.isCall], Int.le_trans above (Int.le_add_one (Int.le_refl _)), rfl⟩

/-- One pop. -/
theorem pop_straight {floor low : Int} (above : floor ≤ low)
    : Straight floor (low + 1) [.instr (.pop .rax)] low := by
  refine ⟨rfl, by simp [Instr.isCall], ?_, ?_⟩
  · simp only [Instr.rise]
    omega
  · simp only [Straight, Instr.rise]
    omega

theorem effect_straight {e : Option Expr} {floor : Int} (h : (effect f e).Emits g ls g' ())
    (above : floor ≤ g.depth)
    : Straight floor g.depth ls g.depth := by
  cases e with
  | none =>
      obtain ⟨rfl, -⟩ := emits_effect_none.mp h
      rfl
  | some e =>
      obtain ⟨l₁, first, rfl, -⟩ := emits_effect_some.mp h
      exact (value_straight e first above).append (pop_straight above)

/-- The value that decides a jump is taken from the stack. -/
theorem typed_jumpIfZero {l : Label} {low : Int} (given : heightOf l = low) (own : l.id?.isSome)
    (positive : 0 ≤ low)
    : (Listing.jumpIfZero l).Typed heightOf (some (low + 1)) (some low) := by
  have test : Straight 0 (low + 1)
      [.instr (.pop .rax), .instr (.cmp (.reg .rax) (.imm 0))] low := by
    simp [Straight, Instr.isPlain, Register.isFrame, Instr.isCall, Instr.rise]
    omega
  exact (test.typed (Int.le_refl _)).append (Listing.typed_single ⟨given, own, rfl⟩)

theorem typed_leaveUnless {l : Label} {e : Option Expr} (h : (leaveUnless f l e).Emits g ls g' ())
    (given : heightOf l = g.depth) (own : l.id?.isSome) (positive : 0 ≤ g.depth)
    : ls.Typed heightOf (some g.depth) (some g.depth) := by
  cases e with
  | none =>
      obtain ⟨rfl, -⟩ := emits_leaveUnless_none.mp h
      rfl
  | some e =>
      obtain ⟨l₁, first, rfl, -⟩ := emits_leaveUnless_some.mp h
      exact ((value_straight e first positive).typed (Int.le_refl _)).append
        (typed_jumpIfZero given own positive)

/-- The end of a function gives up the frame, so any height may follow. -/
theorem typed_epilogue {low : Int} {high : Option Int}
    : Listing.epilogue.Typed heightOf (some low) high :=
  ⟨none, rfl, none, .inl ⟨rfl, rfl⟩, high, .inr rfl, rfl⟩

/-- The branches of a conditional statement start at one height and end at one height. -/
theorem branch_flows {id : Nat} {low : Int} {l₁ l₂ l₃ : Listing} (positive : 0 ≤ low)
    (test : Straight 0 low l₁ (low + 1)) (yes : Flows low l₂ (low + 1))
    (no : Flows low l₃ (low + 1))
    : Flows low (Listing.branch id l₁ l₂ l₃) (low + 1) := by
  obtain ⟨table, labels, typed⟩ := yes
  obtain ⟨table', labels', typed'⟩ := no
  refine ⟨table ++ ((.otherwise id, low) :: (table' ++ [(.finish id, low + 1)])), ?_, ?_⟩
  · simp only [Listing.branch, Listing.labels_append, test.labels_eq_nil, List.map_append,
      List.map_cons, labels, labels']
    rfl
  · intro heightOf given
    have other : heightOf (.otherwise id) = low := given (.otherwise id, low) (by simp)
    have finish : heightOf (.finish id) = low + 1 := given (.finish id, low + 1) (by simp)
    have typedYes := typed heightOf fun p member => given p (by simp [member])
    have typedNo := typed' heightOf fun p member => given p (by simp [member])
    have between : Listing.Typed heightOf (some (low + 1))
        [.instr (.jmp (.finish id)), .label (.otherwise id)] (some low) :=
      ⟨some low, ⟨finish, rfl⟩, some low, ⟨congrArg some other.symm, rfl⟩, rfl⟩
    have last : Listing.Typed heightOf (some (low + 1)) [.label (.finish id)] (some (low + 1)) :=
      Listing.typed_single ⟨congrArg some finish.symm, rfl⟩
    exact (test.typed (Int.le_refl _)).append ((typed_jumpIfZero other rfl positive).append
      (typedYes.append (between.append (typedNo.append last))))

/-- A loop ends at the height that it starts at. -/
theorem repetition_flows {id : Nat} {low : Int} {l₁ l₂ l₃ : Listing} (positive : 0 ≤ low)
    (none : l₁.labels = [])
    (test : ∀ heightOf : Label → Int, heightOf (.finish id) = low
      → l₁.Typed heightOf (some low) (some low))
    (body : Flows low l₂ (low + 1)) (step : Straight 0 low l₃ low)
    : Flows low (Listing.repetition id l₁ l₂ l₃) low := by
  obtain ⟨table, labels, typed⟩ := body
  refine ⟨(.start id, low) :: (table ++ [(.finish id, low)]), ?_, ?_⟩
  · simp only [Listing.repetition, Listing.labels_append, none, step.labels_eq_nil,
      List.map_append, List.map_cons, labels]
    rfl
  · intro heightOf given
    have start : heightOf (.start id) = low := given (.start id, low) (by simp)
    have finish : heightOf (.finish id) = low := given (.finish id, low) (by simp)
    have typedBody := typed heightOf fun p member => given p (by simp [member])
    have first : Listing.Typed heightOf (some low) [.label (.start id)] (some low) :=
      Listing.typed_single ⟨congrArg some start.symm, rfl⟩
    have last : Listing.Typed heightOf (some low)
        [.instr (.jmp (.start id)), .label (.finish id)] (some low) :=
      ⟨some low, ⟨start, rfl⟩, some low, ⟨congrArg some finish.symm, rfl⟩, rfl⟩
    exact first.append ((test heightOf finish).append (typedBody.append
      (((pop_straight positive).typed (Int.le_refl _)).append
        ((step.typed (Int.le_refl _)).append last))))

theorem forLoop_flows {start condition step : Option Expr} {body : Stmt}
    (h : (stmt f (.forLoop start condition step body)).Emits g ls g' ()) (positive : 0 ≤ g.depth)
    (inner : ∀ {g₁ g₂ l₂}, (stmt f body).Emits g₁ l₂ g₂ () → 0 ≤ g₁.depth
      → Flows g₁.depth l₂ (g₁.depth + 1))
    : Flows g.depth ls (g.depth + 1) := by
  obtain ⟨l₀, l, g₁, zeroth, repeated, rfl, -⟩ := emits_stmt_forLoop.mp h
  obtain ⟨l₁, l₂, g₂, l₃, first, second, third, rfl, -⟩ := emits_repetition.mp repeated
  have height : (g₂.deeper (-1)).depth = g.depth := by
    have raised := stmt_state body second
    simp only at raised
    rw [GenState.deeper_depth, raised]
    omega
  have stepped := effect_straight third (show (0 : Int) ≤ _ from height ▸ positive)
  rw [height] at stepped
  have test (heightOf : Label → Int) (given : heightOf (.finish g.nextLabel) = g.depth) :=
    typed_leaveUnless (g := ⟨g.nextLabel + 1, g.depth⟩) first given rfl positive
  have body := inner second positive
  have repeats : Flows g.depth (Listing.repetition g.nextLabel l₁ l₂ l₃) g.depth :=
    repetition_flows positive (leaveUnless_labels first) test body stepped
  have started := effect_straight zeroth (show (0 : Int) ≤ g.depth from positive)
  exact (Flows.of_straight started (Int.le_refl _)).append
    (repeats.append (.of_straight (push_straight (.imm 0) positive) (Int.le_refl _)))

mutual

/-- The code of a statement raises the stack by one word on every path through it. -/
theorem stmt_flows (s : Stmt) {g g' : GenState} {ls : Listing}
    (h : (stmt f s).Emits g ls g' ()) (positive : 0 ≤ g.depth)
    : Flows g.depth ls (g.depth + 1) := by
  cases s with
  | expr e => exact .of_straight (value_straight e (emits_stmt_expr.mp h) positive) (Int.le_refl _)
  | block body =>
      obtain ⟨l₁, g₁, first, rfl, -⟩ := emits_stmt_block.mp h
      exact (stmts_flows body first positive).append
        (.of_straight (push_straight (.reg .rax) positive) (Int.le_refl _))
  | branch condition whenTrue whenFalse =>
      obtain ⟨l₁, l₂, g₂, l₃, first, second, third, rfl⟩ := emits_stmt_branch.mp h
      have test := value_straight condition first (show (0 : Int) ≤ g.depth from positive)
      have yes := stmt_flows whenTrue second positive
      refine branch_flows positive test yes ?_
      cases whenFalse with
      | none =>
          obtain ⟨rfl, -⟩ := emits_push.mp third
          exact .of_straight (push_straight (.imm 0) positive) (Int.le_refl _)
      | some s => exact stmt_flows s (g := ⟨g₂.nextLabel, g.depth⟩) third positive
  | whileLoop condition body =>
      rw [stmt_whileLoop_eq] at h
      exact forLoop_flows h positive (stmt_flows body)
  | forLoop start condition step body => exact forLoop_flows h positive (stmt_flows body)
  | ret e =>
      obtain ⟨l₁, first, rfl, -⟩ := emits_stmt_ret.mp h
      have taken := (value_straight e first positive).append (pop_straight positive)
      refine ⟨[], ?_, fun heightOf _ => ?_⟩
      · rw [← List.append_assoc, Listing.labels_append, taken.labels_eq_nil]
        rfl
      · rw [← List.append_assoc]
        exact (taken.typed (Int.le_refl _)).append typed_epilogue
  | declare id =>
      obtain ⟨rfl, -⟩ := emits_stmt_declare.mp h
      exact .of_straight (push_straight (.imm 0) positive) (Int.le_refl _)

/-- The code of statements leaves the stack at its height. -/
theorem stmts_flows (ss : List Stmt) {g g' : GenState} {ls : Listing}
    (h : (stmts f ss).Emits g ls g' ()) (positive : 0 ≤ g.depth)
    : Flows g.depth ls g.depth := by
  cases ss with
  | nil =>
      obtain ⟨rfl, -⟩ := emits_stmts_nil.mp h
      exact ⟨[], rfl, fun _ _ => rfl⟩
  | cons s ss =>
      obtain ⟨l₁, g₁, l₂, first, second, rfl⟩ := emits_stmts_cons.mp h
      have height : (g₁.deeper (-1)).depth = g.depth := by
        rw [GenState.deeper_depth, stmt_state s first]
        omega
      have rest := stmts_flows ss second (height ▸ positive)
      rw [height] at rest
      exact (stmt_flows s first positive).append
        (.append (.of_straight (pop_straight positive) (Int.le_refl _)) rest)

end

end Emit

-----------------------------------------------------------------------------------------
-- Paths
-----------------------------------------------------------------------------------------

/-- The first line after the head of a function. -/
def Function.bodyLine (f : Function) : Nat :=
  (Listing.prologue f.name f.frame).length + f.params.length

/-- The heights fit the code from its first line on, and jumps do not lead before it. -/
structure Graded (heightOf : Label → Int) (code : Listing) (first : Nat)
    (height : Nat → Option Int)
    : Prop where
  start : height first = some 0
  fits : ∀ (n : Nat) (line : Line), first ≤ n → code[n]? = some line
    → line.Fits heightOf (height n) (height (n + 1))
  head : ∀ (n : Nat) (l : Label), n < first → code[n]? = some (.label l) → l.id? = none

namespace Graded

variable {heightOf : Label → Int} {code : Listing} {first n k : Nat} {height : Nat → Option Int}

/-- A line that can be jumped to has the height of its label. -/
theorem target (graded : Graded heightOf code first height) {l : Label} (own : l.id?.isSome)
    (here : code[k]? = some (.label l))
    : first ≤ k ∧ height k = some (heightOf l) := by
  have inside : first ≤ k := by
    by_contra before
    rw [graded.head k l (Nat.lt_of_not_le before) here] at own
    cases own
  exact ⟨inside, (graded.fits k _ inside here).1⟩

/-- What a line that fits at a height passes on along an edge. -/
theorem edge (graded : Graded heightOf code first height) {low : Int} {line : Line}
    (inside : first ≤ n) (at' : height n = some low) (positive : 0 ≤ low)
    (here : code[n]? = some line) (stays : line ≠ .leaveFrame) (edge : code.Edge n k)
    : first ≤ k ∧ height k = some (low + line.rise) ∧ 0 ≤ low + line.rise := by
  have fits := graded.fits n line inside here
  rw [at'] at fits
  cases edge with
  | next here' through =>
      obtain rfl := Option.some.inj (here.symm.trans here')
      exact ⟨Nat.le_succ_of_le inside, fits.through through stays positive⟩
  | jmp here' target =>
      obtain rfl := Option.some.inj (here.symm.trans here')
      obtain ⟨same, own⟩ := fits
      obtain ⟨inside', height'⟩ := graded.target own target
      rw [height', same]
      simpa [Line.rise, Instr.rise] using ⟨inside', positive⟩
  | jmpIf here' target =>
      obtain rfl := Option.some.inj (here.symm.trans here')
      obtain ⟨same, own, -⟩ := fits
      obtain ⟨inside', height'⟩ := graded.target own target
      rw [height', same]
      simpa [Line.rise, Instr.rise] using ⟨inside', positive⟩

/-- Every path comes to a line with the height of the line. -/
theorem heightAt (graded : Graded heightOf code first height) {low : Int}
    (path : code.HeightAt first n low)
    : first ≤ n ∧ height n = some low ∧ 0 ≤ low := by
  induction path with
  | start => exact ⟨Nat.le_refl _, graded.start, Int.le_refl _⟩
  | step before here inside edge ih =>
      obtain ⟨later, height', positive⟩ := ih
      exact graded.edge later height' positive here inside edge

/-- Calls are made at even heights. -/
theorem even_of_call (graded : Graded heightOf code first height) {low : Int} {name : String}
    (inside : first ≤ n) (at' : height n = some low)
    (here : code[n]? = some (.instr (.call name)))
    : low % 2 = 0 := by
  have fits := graded.fits n _ inside here
  rw [at'] at fits
  exact fits.2.1 rfl

end Graded

/-- The lines of a function have heights. -/
theorem Emit.function_graded {f : Function} {g g' : GenState} {code : Listing}
    (h : (function f).Emits g code g' ())
    : ∃ heightOf height, Graded heightOf code f.bodyLine height := by
  obtain ⟨l₁, l₂, spills, body, lines⟩ := function_emits h
  have split : code = (Listing.prologue f.name f.frame ++ l₁) ++ (l₂ ++ Listing.epilogue) := by
    rw [lines, List.append_assoc]
  have head : (Listing.prologue f.name f.frame ++ l₁).length = f.bodyLine := by
    rw [List.length_append, Function.bodyLine, spills.length_eq]
  have flows : Flows 0 l₂ 0 := stmts_flows f.body body (Int.le_refl _)
  obtain ⟨heightOf, typed⟩ := flows.typed (stmts_numbered f.body body).distinct
  have all : (l₂ ++ Listing.epilogue).Typed heightOf (some 0) none := typed.append typed_epilogue
  obtain ⟨height, start, fits⟩ := all.heights
  refine ⟨heightOf, fun n => height (n - f.bodyLine), ?_, ?_, ?_⟩
  · rw [Nat.sub_self, start]
  · intro n line inside here
    rw [split, List.getElem?_append_right (head ▸ inside), head] at here
    rw [Nat.sub_add_comm inside]
    exact fits _ line here
  · intro n l before here
    rw [split, List.getElem?_append_left (head ▸ before)] at here
    have member := Listing.mem_labels (List.mem_of_getElem? here)
    rw [Listing.labels_append, Listing.labels_prologue, spills.labels_eq_nil, List.append_nil,
      List.mem_singleton] at member
    rw [member]
    rfl

end SlotC
