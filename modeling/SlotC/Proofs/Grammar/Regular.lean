import SlotC.Proofs.Grammar.Declarations

/-! What all functions have in common that are read from tokens: where their variables lie,
in which order the body declares them, and to which `if` an `else` belongs.
-/

namespace SlotC

-----------------------------------------------------------------------------------------
-- Every `else` in its place
-----------------------------------------------------------------------------------------

namespace Stmt

/-- Whether a statement ends in a conditional statement without an other branch. -/
def endsOpen : Stmt → Bool
  | .branch _ _ none => true
  | .branch _ _ (some whenFalse) => whenFalse.endsOpen
  | .whileLoop _ body | .forLoop _ _ _ body => body.endsOpen
  | .expr _ | .block _ | .ret _ | .declare _ => false

mutual

/-- No branch that an `else` follows could have taken the `else` itself. -/
def Nearest : Stmt → Prop
  | .branch _ whenTrue none => whenTrue.Nearest
  | .branch _ whenTrue (some whenFalse) =>
    whenTrue.Nearest ∧ whenTrue.endsOpen = false ∧ whenFalse.Nearest
  | .whileLoop _ body | .forLoop _ _ _ body => body.Nearest
  | .block body => AllNearest body
  | .expr _ | .ret _ | .declare _ => True

/-- The same for statements one after the other. -/
def AllNearest : List Stmt → Prop
  | [] => True
  | s :: ss => s.Nearest ∧ AllNearest ss

end

end Stmt

namespace Phrase

variable {locals : List Variable}

/-- A statement ends as the phrase does that it is read from. -/
theorem Denotes.endsOpen_eq {p : Phrase} {s : Stmt} (denotes : p.Denotes locals s)
    : p.endsOpen = s.endsOpen := by
  match denotes with
  | .expr _ | .ret _ | .block _ | .declare _ | .branch _ _ => rfl
  | .branchElse _ _ whenFalse => exact whenFalse.endsOpen_eq
  | .whileLoop _ body | .forLoop _ _ _ body => exact body.endsOpen_eq

mutual

theorem Denotes.nearest_iff {p : Phrase} {s : Stmt} (denotes : p.Denotes locals s)
    : p.Nearest ↔ s.Nearest := by
  match denotes with
  | .expr _ | .ret _ | .declare _ => exact Iff.rfl
  | .block body => exact body.nearest_iff
  | .branch _ whenTrue => exact whenTrue.nearest_iff
  | .branchElse _ whenTrue whenFalse =>
      rw [Nearest, Stmt.Nearest, whenTrue.nearest_iff, whenTrue.endsOpen_eq, whenFalse.nearest_iff]
  | .whileLoop _ body | .forLoop _ _ _ body => exact body.nearest_iff

theorem AllDenote.nearest_iff {ps : List Phrase} {ss : List Stmt}
    (denotes : AllDenote locals ps ss)
    : AllNearest ps ↔ Stmt.AllNearest ss := by
  match denotes with
  | .nil => exact Iff.rfl
  | .cons first others => exact and_congr first.nearest_iff others.nearest_iff

end

end Phrase

namespace Grammar

variable {frame : Frame}

mutual

/-- A statement is read with every `else` that it can take. -/
theorem stmt_nearest (ts : List Token) {rest : List Token} {s : Stmt}
    (read : Reads (stmt frame ts) s rest)
    : s.Nearest ∧ (s.endsOpen → NoElse rest) := by
  match ts, read with
  | [], read =>
      rw [stmt] at read
      exact absurd read not_reads_error
  | t :: ts, read =>
      by_cases starts : t.kind.startsStmt
      · cases own : t.kind with
        | returnWord =>
            obtain ⟨e, -, rfl⟩ := (reads_stmt_ret own).mp read
            exact ⟨trivial, nofun⟩
        | forWord =>
            obtain ⟨head, r, body, first, second, rfl⟩ := (reads_stmt_for own).mp read
            have fewer := first.fewer
            obtain ⟨near, ends⟩ := stmt_nearest r second
            exact ⟨near, ends⟩
        | whileWord =>
            obtain ⟨e, r, body, first, second, rfl⟩ := (reads_stmt_while own).mp read
            have fewer := first.fewer
            obtain ⟨near, ends⟩ := stmt_nearest r second
            exact ⟨near, ends⟩
        | ifWord =>
            obtain ⟨e, r, yes, r', no, first, second, third, rfl⟩ := (reads_stmt_if own).mp read
            have fewer := first.fewer
            have fewer' := second.fewer
            obtain ⟨near, ends⟩ := stmt_nearest r second
            rcases reads_alternative.mp third with
              ⟨other, q, s, rfl, between, inner, rfl⟩ | ⟨alone, rfl, rfl⟩
            · have shorter : q.length < (other :: q).length := Nat.lt_succ_self _
              obtain ⟨near', ends'⟩ := stmt_nearest q inner
              refine ⟨⟨near, ?_, near'⟩, ends'⟩
              rw [← Bool.not_eq_true]
              exact fun opens => ends opens other rfl between
            · exact ⟨near, fun _ => alone⟩
        | openBrace =>
            obtain ⟨body, inner, rfl⟩ := (reads_stmt_block own).mp read
            exact ⟨items_nearest ts inner, nofun⟩
        | type scalar =>
            obtain ⟨id, -, rfl⟩ := (reads_stmt_declare own).mp read
            exact ⟨trivial, nofun⟩
        | _ => simp [own, Kind.startsStmt] at starts
      · obtain ⟨e, -, rfl⟩ := (reads_stmt_expr (by simpa using starts)).mp read
        exact ⟨trivial, nofun⟩
termination_by 2 * ts.length
decreasing_by all_goals simp only [List.length_cons] at *; omega

/-- The same for the statements of a block. -/
theorem items_nearest (ts : List Token) {rest : List Token} {body : List Stmt}
    (read : Reads (items frame ts) body rest)
    : Stmt.AllNearest body := by
  rcases reads_items.mp read with ⟨last, rfl, -, rfl⟩ | ⟨-, s, r, more, first, second, rfl⟩
  · trivial
  · have fewer := first.fewer
    exact ⟨(stmt_nearest ts first).1, items_nearest r second⟩
termination_by 2 * ts.length + 1
decreasing_by all_goals omega

end

end Grammar

-----------------------------------------------------------------------------------------
-- Functions
-----------------------------------------------------------------------------------------

/-- The variables of a function are laid out one below the other, parameters first, its body
declares the others in their order, and every `else` is in its place.
-/
structure Function.Regular (f : Function) : Prop where
  few : f.paramCount ≤ Frame.maxParams
  enough : f.paramCount ≤ f.locals.length
  distinct : (f.locals.map Variable.name).Nodup
  arguments : ∀ (i : Nat) (v : Variable), f.locals[i]? = some v →
    v.argIndex = if i < f.paramCount then some i else none
  offsets : ∀ (i : Nat) (v : Variable), f.locals[i]? = some v →
    v.offset = 8 * ((f.locals.take (i + 1)).map Variable.slots).sum
  fits : 8 * (f.locals.map Variable.slots).sum ≤ Frame.maxSize
  params : ∀ v ∈ f.locals.take f.paramCount, v.arrayLength = 0
  arrays : ∀ v ∈ f.locals, 0 < v.arrayLength → 1 ≤ v.pointers
  known : ∀ id ∈ Stmt.idsOf f.body, id < f.locals.length
  declared : Stmt.declaredIn f.body = List.range' f.paramCount (f.locals.length - f.paramCount)
  nearest : Stmt.AllNearest f.body

/-- Each of the first is related to one of the others. -/
theorem exists_of_forall₂ {α β : Type} {R : α → β → Prop} {as : List α} {bs : List β}
    (all : List.Forall₂ R as bs)
    : ∀ a ∈ as, ∃ b ∈ bs, R a b := by
  induction all with
  | nil => simp
  | @cons a b as bs first _ ih =>
      refine List.forall_mem_cons.mpr ⟨⟨b, List.mem_cons_self, first⟩, ?_⟩
      intro a' member
      obtain ⟨b', inside, related⟩ := ih a' member
      exact ⟨b', List.mem_cons_of_mem _ inside, related⟩

/-- What is declared as an array counts as a pointer. -/
theorem Variable.Follows.pointers_of_array {v : Variable} {d : Param × Option Token}
    (follows : v.Follows d) (array : 0 < v.arrayLength)
    : 1 ≤ v.pointers := by
  obtain ⟨-, -, pointers, length⟩ := follows
  cases given : d.2 with
  | none =>
      rw [given] at length
      have none : (v.arrayLength : Int) = 0 := length
      omega
  | some token =>
      rw [pointers, given]
      exact Nat.le_add_left 1 _

/-- Parameters are no arrays. -/
theorem Definition.Matches.params_plain {d : Definition} {f : Function} (found : d.Matches f)
    : ∀ v ∈ f.locals.take f.paramCount, v.arrayLength = 0 := by
  intro v member
  obtain ⟨given, inside, follows⟩ := exists_of_forall₂ found.params v member
  obtain ⟨param, -, rfl⟩ := List.mem_map.mp inside
  exact Int.ofNat_eq_zero.mp follows.arrayLength

/-- Arrays count as pointers. -/
theorem Definition.Matches.pointers_of_array {d : Definition} {f : Function}
    (found : d.Matches f)
    : ∀ v ∈ f.locals, 0 < v.arrayLength → 1 ≤ v.pointers := by
  intro v member array
  rw [← f.locals.take_append_drop f.paramCount, List.mem_append] at member
  rcases member with given | declared
  · have none := found.params_plain v given
    omega
  · obtain ⟨d', -, follows⟩ := exists_of_forall₂ found.written v declared
    exact follows.pointers_of_array array

/-- Every function that is read is regular. -/
theorem Grammar.regular_of_reads {ts rest : List Token} {f : Function}
    (read : Reads (function ts) f rest)
    : f.Regular := by
  obtain ⟨_, d, -, -, elaborates⟩ := function_elaborates read
  have found := elaborates.matches
  obtain ⟨_, _, _, _, ps, _, _, frame, body, -, -, -, -, laid, block, rfl⟩ :=
    reads_function.mp read
  have tiled := Frame.tiled_of_ofBody laid
  obtain ⟨-, r, rfl, -, items⟩ := reads_block.mp block
  exact {
    few := (Frame.ofBody_eq_ok.mp laid).1
    enough := tiled.enough
    distinct := tiled.distinct
    arguments := tiled.arguments
    offsets := tiled.packed.offsets
    fits := tiled.packed.size ▸ tiled.fits
    params := found.params_plain
    arrays := found.pointers_of_array
    known := found.known
    declared := found.declared
    nearest := items_nearest r items
  }

/-- Every function of a program that is read is regular. -/
theorem Program.regular_of_ofTokens {ts : List Token} {program : Program}
    (read : Program.ofTokens ts = .ok program)
    : ∀ f ∈ program.functions, f.Regular :=
  Grammar.forall_of_functions Grammar.regular_of_reads (Program.ofTokens_eq_ok.mp read)

end SlotC
