import SlotC.Proofs.Grammar.Phrase

/-! Looking up the names of a phrase. What is written stands for an expression or a statement
if and only if every name in it is that of a variable and sizes are taken only of variables
and numbers.
-/

namespace SlotC

namespace Term

variable {frame : Frame}

/-- The term itself names a variable that there is, if it names one, and takes the size only
of what has one. Nothing is said of the terms inside it.
-/
def Fits (names : List String) : Term → Prop
  | .name t | .element t _ => t.text ∈ names
  | .size operand => operand.isSized
  | .number _ | .call _ _ | .signed _ _ | .joined _ _ _ => True

theorem fits_iff {names : List String} {e : Term}
    : e.Fits names
      ↔ (∀ name ∈ e.named?, name.text ∈ names)
        ∧ ∀ operand, e = .size operand → operand.isSized := by
  cases e <;> simp [Fits, named?]

/-- The terms that have a size are those that stand for a variable or a number. -/
theorem sizeOf?_isSome (e : Term) {e' : Expr} (value : e.expr? frame = some e')
    : (Grammar.sizeOf? frame e').isSome = e.isSized := by
  cases e with
  | number t =>
      cases value
      rfl
  | name t =>
      obtain ⟨id, found, rfl⟩ := expr?_name.mp value
      simpa [Grammar.sizeOf?, isSized] using Frame.get?_of_lookup? found
  | element t index =>
      obtain ⟨id, i, -, -, rfl⟩ := expr?_element.mp value
      rfl
  | call t arguments =>
      obtain ⟨es, -, rfl⟩ := expr?_call.mp value
      rfl
  | signed sign operand =>
      obtain ⟨e'', inner, rfl⟩ := expr?_signed.mp value
      cases sign with
      | plus => exact sizeOf?_isSome operand inner
      | minus | address | content => rfl
  | size operand =>
      obtain ⟨e'', size, -, -, rfl⟩ := expr?_size.mp value
      rfl
  | joined o a b =>
      obtain ⟨a', b', -, -, rfl⟩ := expr?_joined.mp value
      cases o <;> rfl

mutual

/-- A term stands for an expression exactly if all terms in it fit. -/
theorem expr?_exists (e : Term)
    : (∃ e', e.expr? frame = some e') ↔ ∀ s ∈ e.subterms, s.Fits frame.names := by
  cases e with
  | number t => simp [expr?, subterms, Fits]
  | name t => simp [expr?_name, subterms, Fits, Frame.lookup?_exists]
  | element t index =>
      rw [subterms, List.forall_mem_cons, ← expr?_exists index]
      simp [expr?_element, Fits, Frame.lookup?_exists]
  | call t arguments =>
      rw [subterms, List.forall_mem_cons, ← exprs?_exists arguments]
      simp [expr?_call, Fits]
  | signed sign operand =>
      rw [subterms, List.forall_mem_cons, ← expr?_exists operand]
      simp [expr?_signed, Fits]
  | size operand =>
      rw [subterms, List.forall_mem_cons, ← expr?_exists operand, Fits]
      constructor
      · rintro ⟨e, value⟩
        obtain ⟨e', size, inner, found, rfl⟩ := expr?_size.mp value
        rw [← sizeOf?_isSome operand inner, found]
        exact ⟨rfl, e', inner⟩
      · rintro ⟨sized, e', inner⟩
        rw [← sizeOf?_isSome operand inner] at sized
        obtain ⟨size, found⟩ := Option.isSome_iff_exists.mp sized
        exact ⟨_, expr?_size.mpr ⟨e', size, inner, found, rfl⟩⟩
  | joined o a b =>
      rw [subterms, List.forall_mem_cons, List.forall_mem_append, ← expr?_exists a,
        ← expr?_exists b]
      simp [expr?_joined, Fits]

/-- Terms stand for expressions exactly if all terms in them fit. -/
theorem exprs?_exists (es : List Term)
    : (∃ es', exprs? frame es = some es') ↔ ∀ s ∈ subtermsOf es, s.Fits frame.names := by
  cases es with
  | nil => simp [exprs?, subtermsOf]
  | cons e es =>
      rw [subtermsOf, List.forall_mem_append, ← expr?_exists e, ← exprs?_exists es]
      simp [exprs?_cons]

end

end Term

/-- All expressions in the part of a statement fit, and its variable is there if it declares
one.
-/
def Leaf.Fits (names : List String) : Leaf → Prop
  | .term e => ∀ s ∈ e.subterms, s.Fits names
  | .declared param _ => param.name.text ∈ names

namespace Phrase

variable {frame : Frame}

theorem optional?_exists (e : Option Term)
    : (∃ e', Term.optional? frame e = some e')
      ↔ ∀ leaf ∈ e.toList.map Leaf.term, leaf.Fits frame.names := by
  cases e with
  | none => simp [Term.optional?]
  | some e => simp [Term.optional?_some, Term.expr?_exists, Leaf.Fits]

mutual

/-- A phrase stands for a statement exactly if all its parts fit. -/
theorem stmt?_exists (p : Phrase)
    : (∃ s, p.stmt? frame = some s) ↔ ∀ leaf ∈ p.leaves, leaf.Fits frame.names := by
  match p with
  | .expr e => simp [stmt?_expr, leaves, Leaf.Fits, Term.expr?_exists]
  | .ret e => simp [stmt?_ret, leaves, Leaf.Fits, Term.expr?_exists]
  | .block body => simp [stmt?_block, leaves, ← stmts?_exists body]
  | .branch e yes none =>
      rw [leaves, List.forall_mem_cons, ← stmt?_exists yes, Leaf.Fits, ← Term.expr?_exists]
      simp [stmt?_branch]
  | .branch e yes (some no) =>
      rw [leaves, List.forall_mem_cons, List.forall_mem_append, ← stmt?_exists yes,
        ← stmt?_exists no, Leaf.Fits, ← Term.expr?_exists]
      simp [stmt?_branchElse]
  | .whileLoop e body =>
      rw [leaves, List.forall_mem_cons, ← stmt?_exists body, Leaf.Fits, ← Term.expr?_exists]
      simp [stmt?_whileLoop]
  | .forLoop start condition step body =>
      rw [leaves, List.map_append, List.map_append, List.forall_mem_append, List.forall_mem_append,
        List.forall_mem_append, ← stmt?_exists body, ← optional?_exists, ← optional?_exists,
        ← optional?_exists]
      simp [stmt?_forLoop, and_assoc]
  | .declare param length => simp [stmt?_declare, leaves, Leaf.Fits, Frame.lookup?_exists]

/-- Phrases stand for statements exactly if all their parts fit. -/
theorem stmts?_exists (ps : List Phrase)
    : (∃ ss, stmts? frame ps = some ss) ↔ ∀ leaf ∈ leavesOf ps, leaf.Fits frame.names := by
  match ps with
  | [] => simp [stmts?, leavesOf]
  | p :: ps =>
      rw [leavesOf, List.forall_mem_append, ← stmt?_exists p, ← stmts?_exists ps]
      simp [stmts?_cons]

end

end Phrase

end SlotC
