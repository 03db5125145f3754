import Mathlib.Data.List.Nodup
import SlotC.Proofs.Code.Height

/-! Where lines and labels stand in code. The conditional statements and loops are counted,
each before those inside it, and the labels that code defines are those with their numbers.
-/

namespace SlotC

namespace Listing

/-- The line that defines the label. -/
def line? (code : Listing) (l : Label) : Option Nat :=
  code.findIdx? fun line => line = .label l

/-- The lines stand in the code, the first of them at the given line. -/
def At (code : Listing) (n : Nat) (ls : Listing) : Prop :=
  ls <+: code.drop n

section

variable {code first second ls : Listing} {n : Nat} {line : Line} {l : Label}

/-- Lines stand in the code where both halves of them do. -/
theorem at_append
    : code.At n (first ++ second) ↔ code.At n first ∧ code.At (n + first.length) second := by
  simp only [At]
  constructor
  · rintro ⟨after, same⟩
    refine ⟨⟨second ++ after, by rw [← same, List.append_assoc]⟩, after, ?_⟩
    rw [← List.drop_drop, ← same, List.append_assoc, List.drop_left]
  · rintro ⟨⟨after, same⟩, after', same'⟩
    rw [← List.drop_drop, ← same, List.drop_left] at same'
    exact ⟨after', by rw [List.append_assoc, same', same]⟩

/-- A line stands in the code if it is the one at its place. -/
theorem at_cons
    : code.At n (line :: ls) ↔ code[n]? = some line ∧ code.At (n + 1) ls := by
  rw [← List.singleton_append, at_append]
  refine and_congr_left fun _ => ?_
  rw [← List.head?_drop, At]
  cases code.drop n with
  | nil => simp
  | cons next rest => simp [eq_comm]

theorem at_pair {next : Line}
    : code.At n [line, next] ↔ code.At n [line] ∧ code.At (n + 1) [next] := by
  rw [← List.singleton_append, at_append, List.length_singleton]

/-- The labels of two listings, one after the other. -/
@[simp] theorem labels_append : labels (first ++ second) = first.labels ++ second.labels :=
  List.filterMap_append

/-- A line that defines a label puts it among the labels. -/
theorem mem_labels (member : .label l ∈ ls) : l ∈ ls.labels :=
  List.mem_filterMap.mpr ⟨_, member, rfl⟩

/-- The line that a label is found at defines it. -/
theorem getElem?_of_line? (found : code.line? l = some n) : code[n]? = some (.label l) := by
  obtain ⟨inside, same, -⟩ := List.findIdx?_eq_some_iff_getElem.mp found
  rw [List.getElem?_eq_getElem inside]
  exact congrArg some (of_decide_eq_true same)

/-- In code whose labels are all different, a label is found where it stands. -/
theorem At.line?_eq (standing : code.At n (.label l :: ls)) (distinct : code.labels.Nodup)
    : code.line? l = some n := by
  obtain ⟨here, -⟩ := at_cons.mp standing
  obtain ⟨inside, here⟩ := List.getElem?_eq_some_iff.mp here
  refine List.findIdx?_eq_some_iff_getElem.mpr ⟨inside, by simp [here], ?_⟩
  intro j before same
  have split : code = code.take n ++ .label l :: code.drop (n + 1) := by
    rw [← here, ← List.drop_eq_getElem_cons inside, List.take_append_drop]
  have earlier : l ∈ labels (code.take n) := by
    apply mem_labels
    rw [← of_decide_eq_true same]
    exact List.mem_take_iff_getElem.mpr ⟨j, by omega, rfl⟩
  rw [split, labels_append] at distinct
  exact (List.nodup_append.mp distinct).2.2 l earlier l (by simp [labels]) rfl

end

end Listing

-----------------------------------------------------------------------------------------
-- Labels of emitted code
-----------------------------------------------------------------------------------------

/-- The number of a label in the code of a statement. -/
def Label.id? : Label → Option Nat
  | .symbol _ => none
  | .otherwise id | .finish id | .start id => some id

/-- Whether the label has a number, and so is no name. -/
def Label.isNumbered (l : Label) : Bool :=
  l.id?.isSome

/-- What sort of statement takes a number. -/
inductive Form where
  | conditional
  | loop
deriving DecidableEq, Repr

namespace Form

/-- The labels of a statement with the given number. -/
def labels (id : Nat) : Form → List Label
  | .conditional => [.otherwise id, .finish id]
  | .loop => [.start id, .finish id]

/-- The labels of statements that are numbered in order. -/
def numbered : Nat → List Form → List Label
  | _, [] => []
  | id, form :: forms => form.labels id ++ numbered (id + 1) forms

variable {low : Nat} {form : Form} {forms : List Form} {l : Label}

theorem id?_of_mem_labels (member : l ∈ form.labels low) : l.id? = some low := by
  cases form <;> rcases List.mem_pair.mp member with rfl | rfl <;> rfl

@[simp] theorem otherwise_mem_labels : .otherwise low ∈ form.labels low ↔ form = .conditional := by
  cases form <;> simp [labels]

@[simp] theorem start_mem_labels : .start low ∈ form.labels low ↔ form = .loop := by
  cases form <;> simp [labels]

@[simp] theorem finish_mem_labels : .finish low ∈ form.labels low := by
  cases form <;> simp [labels]

theorem nodup_labels (id : Nat) (form : Form) : (form.labels id).Nodup := by
  cases form <;> simp [labels]

theorem numbered_append (low : Nat) (first second : List Form)
    : numbered low (first ++ second)
      = numbered low first ++ numbered (low + first.length) second := by
  induction first generalizing low with
  | nil => rfl
  | cons form first ih =>
      rw [List.cons_append, numbered, numbered, ih, List.append_assoc, List.length_cons]
      congr 3
      omega

/-- A label belongs to the statement with its number. -/
theorem mem_numbered
    : l ∈ numbered low forms
      ↔ ∃ (i : Nat) (form : Form),
          forms[i]? = some form ∧ l ∈ form.labels (low + i) := by
  induction forms generalizing low with
  | nil => simp [numbered]
  | cons form forms ih =>
      rw [numbered, List.mem_append, ih]
      constructor
      · rintro (own | ⟨i, form', found, member⟩)
        · exact ⟨0, form, rfl, own⟩
        · exact ⟨i + 1, form', found, by rwa [Nat.add_comm i, ← Nat.add_assoc]⟩
      · rintro ⟨_ | i, form', found, member⟩
        · cases found
          exact .inl member
        · exact .inr ⟨i, form', found, by rwa [Nat.add_assoc, Nat.add_comm 1]⟩

/-- Numbers tell the labels apart. -/
theorem nodup_numbered (low : Nat) (forms : List Form) : (numbered low forms).Nodup := by
  induction forms generalizing low with
  | nil => exact .nil
  | cons form forms ih =>
      refine List.nodup_append.mpr ⟨nodup_labels low form, ih (low + 1), ?_⟩
      rintro l own _ other rfl
      obtain ⟨i, form', -, later⟩ := mem_numbered.mp other
      have same := (id?_of_mem_labels own).symm.trans (id?_of_mem_labels later)
      have := Option.some.inj same
      omega

end Form

mutual

/-- The conditional statements and loops of a statement, each before those inside it. -/
def Stmt.forms : Stmt → List Form
  | .block body => Stmt.formsOf body
  | .branch _ whenTrue none => .conditional :: whenTrue.forms
  | .branch _ whenTrue (some whenFalse) => .conditional :: (whenTrue.forms ++ whenFalse.forms)
  | .whileLoop _ body | .forLoop _ _ _ body => .loop :: body.forms
  | .expr _ | .ret _ | .declare _ => []

/-- The conditional statements and loops of statements. -/
def Stmt.formsOf : List Stmt → List Form
  | [] => []
  | s :: ss => s.forms ++ Stmt.formsOf ss

end

/-- The labels are those of the forms, numbered from the first bound, and the second bound is
the number after them.
-/
structure Numbered (low : Nat) (forms : List Form) (high : Nat) (labels : List Label) : Prop where
  next : high = low + forms.length
  perm : labels.Perm (Form.numbered low forms)

namespace Numbered

variable {low middle high : Nat} {form : Form} {forms forms' : List Form}
variable {first second : List Label}

theorem nil : Numbered low [] low [] :=
  ⟨rfl, .nil⟩

/-- The order of the labels does not matter. -/
theorem of_perm (h : Numbered low forms high second) (same : first.Perm second)
    : Numbered low forms high first :=
  ⟨h.next, same.trans h.perm⟩

/-- Labels are numbered on where those before them end. -/
theorem append (left : Numbered low forms middle first)
    (right : Numbered middle forms' high second)
    : Numbered low (forms ++ forms') high (first ++ second) := by
  obtain ⟨rfl, perm⟩ := left
  obtain ⟨rfl, perm'⟩ := right
  refine ⟨by rw [List.length_append, Nat.add_assoc], ?_⟩
  rw [Form.numbered_append]
  exact perm.append perm'

/-- A statement takes its number before those inside it. -/
theorem cons (inner : Numbered (low + 1) forms high first)
    : Numbered low (form :: forms) high (form.labels low ++ first) := by
  have own : Numbered low [form] (low + 1) (form.labels low) :=
    ⟨rfl, by rw [Form.numbered, Form.numbered, List.append_nil]⟩
  exact own.append inner

theorem distinct (h : Numbered low forms high first) : first.Nodup :=
  h.perm.nodup_iff.mpr (Form.nodup_numbered low forms)

theorem isNumbered (h : Numbered low forms high first) {l : Label} (member : l ∈ first)
    : l.isNumbered := by
  obtain ⟨_, _, -, own⟩ := Form.mem_numbered.mp (h.perm.mem_iff.mp member)
  rw [Label.isNumbered, Form.id?_of_mem_labels own]
  rfl

end Numbered

namespace Emit

variable {f : Function} {g g' : GenState} {ls : Listing}

theorem value_labels {e : Expr} (h : (value f e).Emits g ls g' ()) : ls.labels = [] :=
  (value_straight e h (Int.le_refl _)).labels_eq_nil

theorem effect_labels {e : Option Expr} (h : (effect f e).Emits g ls g' ())
    : ls.labels = [] := by
  cases e with
  | none => rw [(emits_effect_none.mp h).1, Listing.labels, List.filterMap_nil]
  | some e =>
      obtain ⟨l₁, first, rfl, -⟩ := emits_effect_some.mp h
      rw [Listing.labels_append, value_labels first]
      rfl

theorem leaveUnless_labels {l : Label} {e : Option Expr}
    (h : (leaveUnless f l e).Emits g ls g' ())
    : ls.labels = [] := by
  cases e with
  | none => rw [(emits_leaveUnless_none.mp h).1, Listing.labels, List.filterMap_nil]
  | some e =>
      obtain ⟨l₁, first, rfl, -⟩ := emits_leaveUnless_some.mp h
      rw [Listing.labels_append, value_labels first]
      rfl

/-- A loop has a label on either side of the labels of its body. -/
theorem forLoop_numbered {start condition step : Option Expr} {body : Stmt}
    (h : (stmt f (.forLoop start condition step body)).Emits g ls g' ())
    (inner : ∀ {g₁ g₂ l₂}, (stmt f body).Emits g₁ l₂ g₂ ()
      → Numbered g₁.nextLabel body.forms g₂.nextLabel l₂.labels)
    : Numbered g.nextLabel (.loop :: body.forms) g'.nextLabel ls.labels := by
  obtain ⟨l₀, l, g₁, zeroth, repeated, rfl, rfl⟩ := emits_stmt_forLoop.mp h
  obtain ⟨l₁, l₂, g₂, l₃, first, second, third, rfl, rfl⟩ := emits_repetition.mp repeated
  refine (inner second).cons.of_perm ?_
  simp only [Listing.repetition, Listing.labels_append, effect_labels zeroth,
    leaveUnless_labels first, effect_labels third]
  exact List.Perm.trans (by simp [Listing.labels]) ((List.perm_append_singleton _ _).cons _)

mutual

/-- The labels of a statement are those of its conditional statements and loops, numbered in
order.
-/
theorem stmt_numbered (s : Stmt) {g g' : GenState} {ls : Listing}
    (h : (stmt f s).Emits g ls g' ())
    : Numbered g.nextLabel s.forms g'.nextLabel ls.labels := by
  cases s with
  | expr e =>
      have code := emits_stmt_expr.mp h
      obtain rfl := value_state e code
      rw [value_labels code]
      exact .nil
  | block body =>
      obtain ⟨l₁, g₁, first, rfl, rfl⟩ := emits_stmt_block.mp h
      have inner : Numbered g.nextLabel (Stmt.formsOf body) g₁.nextLabel l₁.labels :=
        stmts_numbered body first
      rw [Listing.labels_append]
      exact (List.append_nil l₁.labels).symm ▸ inner
  | branch condition whenTrue whenFalse =>
      obtain ⟨l₁, l₂, g₂, l₃, first, second, third, rfl⟩ := emits_stmt_branch.mp h
      have yes := stmt_numbered whenTrue second
      have both : Numbered (g.nextLabel + 1) (whenTrue.forms ++ (whenFalse.elim [] Stmt.forms))
          g'.nextLabel (l₂.labels ++ l₃.labels) := by
        cases whenFalse with
        | none =>
            obtain ⟨rfl, rfl⟩ := emits_push.mp third
            exact yes.append .nil
        | some s => exact yes.append (stmt_numbered s (g := ⟨g₂.nextLabel, g.depth⟩) third)
      have own : Stmt.forms (.branch condition whenTrue whenFalse)
          = .conditional :: (whenTrue.forms ++ (whenFalse.elim [] Stmt.forms)) := by
        cases whenFalse with
        | none => simp [Stmt.forms]
        | some s => rfl
      rw [own]
      refine both.cons.of_perm ?_
      simp only [Listing.branch, Listing.labels_append, value_labels first]
      -- the labels of the branches move over the two labels of the statement itself
      show (l₂.labels ++ (_ :: (l₃.labels ++ [Label.finish g.nextLabel]))).Perm
        (_ :: _ :: (l₂.labels ++ l₃.labels))
      refine List.perm_middle.trans ?_
      rw [← List.append_assoc]
      exact (List.perm_append_singleton _ _).cons _
  | whileLoop condition body =>
      rw [stmt_whileLoop_eq] at h
      exact forLoop_numbered h (stmt_numbered body)
  | forLoop start condition step body => exact forLoop_numbered h (stmt_numbered body)
  | ret e =>
      obtain ⟨l₁, first, rfl, rfl⟩ := emits_stmt_ret.mp h
      rw [Listing.labels_append, value_labels first]
      exact .nil
  | declare id =>
      obtain ⟨rfl, rfl⟩ := emits_stmt_declare.mp h
      exact .nil

/-- So are the labels of statements. -/
theorem stmts_numbered (ss : List Stmt) {g g' : GenState} {ls : Listing}
    (h : (stmts f ss).Emits g ls g' ())
    : Numbered g.nextLabel (Stmt.formsOf ss) g'.nextLabel ls.labels := by
  cases ss with
  | nil =>
      obtain ⟨rfl, rfl⟩ := emits_stmts_nil.mp h
      exact .nil
  | cons s ss =>
      obtain ⟨l₁, g₁, l₂, first, second, rfl⟩ := emits_stmts_cons.mp h
      have rest := stmts_numbered ss second
      rw [Listing.labels_append]
      exact (stmt_numbered s first).append rest

end

end Emit

end SlotC
