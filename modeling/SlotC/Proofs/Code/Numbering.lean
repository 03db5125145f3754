import SlotC.Proofs.Code.Function

/-! Labels and jumps of whole programs. The conditional statements and loops of all functions
are counted in one row, and no jump leaves the code of its function.
-/

namespace SlotC

-----------------------------------------------------------------------------------------
-- Jumps
-----------------------------------------------------------------------------------------

/-- The label that the line jumps to. -/
def Line.target? : Line → Option Label
  | .instr (.jmp l) | .instr (.jmpIf _ l) => some l
  | _ => none

namespace Listing

/-- The labels that the lines jump to. -/
def targets (ls : Listing) : List Label :=
  ls.filterMap Line.target?

@[simp] theorem targets_append (first second : Listing)
    : targets (first ++ second) = first.targets ++ second.targets :=
  List.filterMap_append

/-- All jumps of the lines lead to labels among them. -/
def Closed (ls : Listing) : Prop :=
  ls.targets ⊆ ls.labels

/-- Closed lines one after the other are closed. -/
theorem Closed.append {first second : Listing} (left : first.Closed) (right : second.Closed)
    : Closed (first ++ second) := by
  rw [Closed, targets_append, labels_append]
  exact List.append_subset.mpr
    ⟨List.subset_append_of_subset_left _ left, List.subset_append_of_subset_right _ right⟩

theorem closed_of_targets {ls : Listing} (none : ls.targets = []) : ls.Closed := by
  rw [Closed, none]
  exact List.nil_subset _

end Listing

/-- Lines that run straight on do not jump. -/
theorem Straight.targets_eq_nil {floor low high : Int} {ls : Listing}
    (h : Straight floor low ls high)
    : ls.targets = [] := by
  induction ls generalizing low with
  | nil => rfl
  | cons line ls ih =>
      cases line with
      | instr i =>
          obtain ⟨plain, -, -, rest⟩ := h
          have none : Line.target? (.instr i) = none := by
            cases i with
            | jmp | jmpIf => cases plain
            | _ => rfl
          rw [Listing.targets, List.filterMap_cons_none none]
          exact ih rest
      | directive | label => exact h.elim

namespace Emit

variable {f : Function} {g g' : GenState} {ls : Listing}

theorem value_targets {e : Expr} (h : (value f e).Emits g ls g' ()) : ls.targets = [] :=
  (value_straight e h (Int.le_refl _)).targets_eq_nil

theorem effect_targets {e : Option Expr} (h : (effect f e).Emits g ls g' ())
    : ls.targets = [] := by
  cases e with
  | none => rw [(emits_effect_none.mp h).1, Listing.targets, List.filterMap_nil]
  | some e =>
      obtain ⟨l₁, first, rfl, -⟩ := emits_effect_some.mp h
      rw [Listing.targets_append, value_targets first]
      rfl

/-- A test jumps to its label only. -/
theorem leaveUnless_targets {l : Label} {e : Option Expr}
    (h : (leaveUnless f l e).Emits g ls g' ())
    : ls.targets ⊆ [l] := by
  cases e with
  | none =>
      rw [(emits_leaveUnless_none.mp h).1]
      exact List.nil_subset _
  | some e =>
      obtain ⟨l₁, first, rfl, -⟩ := emits_leaveUnless_some.mp h
      rw [Listing.targets_append, value_targets first]
      exact List.Subset.refl _

/-- A loop jumps to its own two labels and within its body. -/
theorem forLoop_closed {start condition step : Option Expr} {body : Stmt}
    (h : (stmt f (.forLoop start condition step body)).Emits g ls g' ())
    (inner : ∀ {g₁ g₂ l₂}, (stmt f body).Emits g₁ l₂ g₂ () → l₂.Closed)
    : ls.Closed := by
  obtain ⟨l₀, l, g₁, zeroth, repeated, rfl, -⟩ := emits_stmt_forLoop.mp h
  obtain ⟨l₁, l₂, g₂, l₃, first, second, third, rfl, -⟩ := emits_repetition.mp repeated
  intro target jumped
  simp only [Listing.repetition, Listing.targets_append, effect_targets zeroth,
    effect_targets third, List.mem_append] at jumped
  simp only [Listing.repetition, Listing.labels_append, List.mem_append]
  rcases jumped with none | (none | test | within | none | none | back) | none
  · cases none
  · cases none
  · have own := List.mem_singleton.mp (leaveUnless_targets first test)
    simp [own, Listing.labels]
  · simp [inner second within]
  · cases none
  · cases none
  · simp [List.mem_singleton.mp back, Listing.labels]
  · cases none

mutual

/-- The jumps of a statement lead to its own labels. -/
theorem stmt_closed (s : Stmt) {g g' : GenState} {ls : Listing}
    (h : (stmt f s).Emits g ls g' ())
    : ls.Closed := by
  cases s with
  | expr e => exact Listing.closed_of_targets (value_targets (emits_stmt_expr.mp h))
  | block body =>
      obtain ⟨l₁, g₁, first, rfl, -⟩ := emits_stmt_block.mp h
      exact (stmts_closed body first).append (Listing.closed_of_targets rfl)
  | branch condition whenTrue whenFalse =>
      obtain ⟨l₁, l₂, g₂, l₃, first, second, third, rfl⟩ := emits_stmt_branch.mp h
      have yes := stmt_closed whenTrue second
      have no : l₃.Closed := by
        cases whenFalse with
        | none =>
            obtain ⟨rfl, -⟩ := emits_push.mp third
            exact Listing.closed_of_targets rfl
        | some s => exact stmt_closed s (g := ⟨g₂.nextLabel, g.depth⟩) third
      intro target jumped
      simp only [Listing.branch, Listing.targets_append, value_targets first,
        List.mem_append] at jumped
      simp only [Listing.branch, Listing.labels_append, List.mem_append]
      rcases jumped with none | skips | within | past | within | none
      · cases none
      · simp [List.mem_singleton.mp skips, Listing.labels]
      · simp [yes within]
      · simp [List.mem_singleton.mp past, Listing.labels]
      · simp [no within]
      · cases none
  | whileLoop condition body =>
      rw [stmt_whileLoop_eq] at h
      exact forLoop_closed h (stmt_closed body)
  | forLoop start condition step body => exact forLoop_closed h (stmt_closed body)
  | ret e =>
      obtain ⟨l₁, first, rfl, -⟩ := emits_stmt_ret.mp h
      have straight := Listing.closed_of_targets (value_targets first)
      exact straight.append (Listing.closed_of_targets rfl)
  | declare id =>
      obtain ⟨rfl, -⟩ := emits_stmt_declare.mp h
      exact Listing.closed_of_targets rfl

/-- So do the jumps of statements. -/
theorem stmts_closed (ss : List Stmt) {g g' : GenState} {ls : Listing}
    (h : (stmts f ss).Emits g ls g' ())
    : ls.Closed := by
  cases ss with
  | nil =>
      obtain ⟨rfl, -⟩ := emits_stmts_nil.mp h
      exact Listing.closed_of_targets rfl
  | cons s ss =>
      obtain ⟨l₁, g₁, l₂, first, second, rfl⟩ := emits_stmts_cons.mp h
      have popped : Listing.Closed [.instr (.pop .rax)] := Listing.closed_of_targets rfl
      exact (stmt_closed s first).append (popped.append (stmts_closed ss second))

end

/-- No jump leaves the code of a function. -/
theorem function_closed (h : (function f).Emits g ls g' ()) : ls.Closed := by
  obtain ⟨l₁, l₂, stored, body, rfl⟩ := function_emits h
  have head : (Listing.prologue f.name f.frame).targets = [] := by
    unfold Listing.prologue Listing.setUp
    split
    · rfl
    · rfl
  have spills : l₁.targets = [] := by
    refine List.filterMap_eq_nil_iff.mpr ?_
    intro line member
    obtain ⟨v, r, rfl⟩ := stored.eq_mov member
    rfl
  refine (Listing.closed_of_targets head).append ((Listing.closed_of_targets spills).append ?_)
  exact (stmts_closed f.body body).append (Listing.closed_of_targets rfl)

-----------------------------------------------------------------------------------------
-- Functions one after the other
-----------------------------------------------------------------------------------------

/-- Apart from its name, the labels of a function are those of its statements. -/
theorem function_numbered (h : (function f).Emits g ls g' ())
    : Numbered g.nextLabel (Stmt.formsOf f.body) g'.nextLabel
        (ls.labels.filter Label.isNumbered) := by
  obtain ⟨l₁, l₂, stored, body, rfl⟩ := function_emits h
  have numbered := stmts_numbered f.body body
  have own : l₂.labels.filter Label.isNumbered = l₂.labels :=
    List.filter_eq_self.mpr fun l member => numbered.isNumbered member
  simp only [Listing.labels_append, Listing.labels_prologue, stored.labels_eq_nil,
    List.filter_append, own]
  exact (List.append_nil l₂.labels).symm ▸ numbered

/-- The functions go on counting where the one before them ends. -/
theorem functions_numbered {fs : List Function} (h : (functions fs).Emits g ls g' ())
    : Numbered g.nextLabel (fs.flatMap fun f => Stmt.formsOf f.body) g'.nextLabel
        (ls.labels.filter Label.isNumbered) := by
  induction fs generalizing g ls with
  | nil =>
      obtain ⟨rfl, rfl⟩ := emits_functions_nil.mp h
      exact .nil
  | cons f fs ih =>
      obtain ⟨l₁, g₁, l₂, first, others, rfl⟩ := emits_functions_cons.mp h
      rw [Listing.labels_append, List.filter_append, List.flatMap_cons]
      exact (function_numbered first).append (ih others)

/-- The code of functions is that of each of them, one after the other. -/
theorem functions_parts {fs : List Function} (h : (functions fs).Emits g ls g' ())
    : ∃ parts, ls = parts.flatten
        ∧ List.Forall₂ (fun f part => ∃ g g', (function f).Emits g part g' ()) fs parts := by
  induction fs generalizing g ls with
  | nil =>
      obtain ⟨rfl, -⟩ := emits_functions_nil.mp h
      exact ⟨[], rfl, .nil⟩
  | cons f fs ih =>
      obtain ⟨l₁, g₁, l₂, first, others, rfl⟩ := emits_functions_cons.mp h
      obtain ⟨parts, rfl, all⟩ := ih others
      exact ⟨l₁ :: parts, rfl, .cons ⟨g, g₁, first⟩ all⟩

end Emit

-----------------------------------------------------------------------------------------
-- Programs
-----------------------------------------------------------------------------------------

/-- The conditional statements and loops of a program, in the order of its functions. -/
def Program.forms (program : Program) : List Form :=
  program.functions.flatMap fun f => Stmt.formsOf f.body

/-- The conditional statement or loop with the number; they are counted from one. -/
def Program.form? (program : Program) : Nat → Option Form
  | 0 => none
  | n + 1 => program.forms[n]?

/-- A label is among those of the program if the form with its number has it. -/
theorem Program.mem_numbered_forms {program : Program} {l : Label} {id : Nat}
    (own : l.id? = some id)
    : l ∈ Form.numbered 1 program.forms ↔ ∃ form ∈ program.form? id, l ∈ form.labels id := by
  rw [Form.mem_numbered]
  constructor
  · rintro ⟨i, form, found, member⟩
    have same := own.symm.trans (Form.id?_of_mem_labels member)
    obtain rfl : id = 1 + i := Option.some.inj same
    rw [Nat.add_comm 1] at member ⊢
    exact ⟨form, found, member⟩
  · rintro ⟨form, found, member⟩
    cases id with
    | zero => cases found
    | succ i => exact ⟨i, form, found, by rwa [Nat.add_comm]⟩

/-- A label is defined once if the form with its number has it, and else not at all. -/
theorem Program.count_labels {program : Program} {listing : Listing} {l : Label} {id : Nat}
    (generated : program.listing = .ok listing) (own : l.id? = some id)
    : listing.labels.count l
      = if ∃ form ∈ program.form? id, l ∈ form.labels id then 1 else 0 := by
  obtain ⟨g, emitted⟩ := Program.listing_eq_ok.mp generated
  have numbered := Emit.functions_numbered emitted
  have isNumbered : l.isNumbered := by rw [Label.isNumbered, own]; rfl
  have member : l ∈ listing.labels.filter Label.isNumbered
      ↔ ∃ form ∈ program.form? id, l ∈ form.labels id :=
    numbered.perm.mem_iff.trans (Program.mem_numbered_forms own)
  rw [← List.count_filter isNumbered]
  split
  · next has => exact List.count_eq_one_of_mem numbered.distinct (member.mpr has)
  · next none => exact List.count_eq_zero_of_not_mem fun inside => none (member.mp inside)

/-- In the code of a program, the statement with a number has just its own labels, each once:
the one of the alternative and the end for a conditional, the start and the end for a loop.
Every jump in the code of a function leads to a label in the code of that function.
-/
theorem listing_numbersLabels (program : Program) (listing : Listing)
    (generated : program.listing = .ok listing)
    : (∀ id, listing.labels.count (.otherwise id)
        = if program.form? id = some .conditional then 1 else 0)
      ∧ (∀ id, listing.labels.count (.start id)
          = if program.form? id = some .loop then 1 else 0)
      ∧ (∀ id, listing.labels.count (.finish id)
          = if (program.form? id).isSome then 1 else 0)
      ∧ ∃ parts, listing = parts.flatten
          ∧ List.Forall₂ (fun f part => (∃ g g', (Emit.function f).Emits g part g' ())
              ∧ ∀ l ∈ part.targets, l ∈ part.labels) program.functions parts := by
  refine ⟨?_, ?_, ?_, ?_⟩
  · intro id
    rw [Program.count_labels generated rfl]
    exact if_congr (by simp) rfl rfl
  · intro id
    rw [Program.count_labels generated rfl]
    exact if_congr (by simp) rfl rfl
  · intro id
    rw [Program.count_labels generated rfl]
    exact if_congr (by simp [Option.isSome_iff_exists]) rfl rfl
  · obtain ⟨g, emitted⟩ := Program.listing_eq_ok.mp generated
    obtain ⟨parts, split, all⟩ := Emit.functions_parts emitted
    refine ⟨parts, split, all.imp ?_⟩
    rintro f part ⟨g, g', code⟩
    exact ⟨⟨g, g', code⟩, fun l jumped => Emit.function_closed code jumped⟩

/-- A conditional statement with a loop in either branch, and another one in a second function.
-/
def Program.twoFunctions : Program :=
  ⟨[⟨"f", 1, [⟨"a", .int, 8, 0, 0, some 0⟩],
      [.branch (.var 0) (.whileLoop (.var 0) (.expr (.assign (.var 0) (.constant 0))))
        (some (.forLoop none (some (.var 0)) none (.block [])))]⟩,
    ⟨"g", 0, [], [.block [.branch (.call "f" [.constant 1]) (.ret (.constant 2)) none]]⟩]⟩

/-- The last statement of `twoFunctions` has the number four. -/
theorem listing_numbersLabels_twoFunctions
    : ∃ listing, Program.twoFunctions.listing = .ok listing
        ∧ listing.labels.count (.otherwise 1) = 1 ∧ listing.labels.count (.start 2) = 1
        ∧ listing.labels.count (.start 3) = 1 ∧ listing.labels.count (.otherwise 4) = 1
        ∧ listing.labels.count (.start 4) = 0 ∧ listing.labels.count (.finish 5) = 0 := by
  obtain ⟨listing, generated⟩ : ∃ listing, Program.twoFunctions.listing = .ok listing :=
    ⟨_, rfl⟩
  obtain ⟨otherwise, start, finish, -⟩ := listing_numbersLabels _ listing generated
  exact ⟨listing, generated, otherwise 1, start 2, start 3, otherwise 4, start 4, finish 5⟩

end SlotC
