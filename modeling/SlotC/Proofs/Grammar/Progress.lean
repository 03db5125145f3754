import SlotC.Proofs.Grammar.Follows

/-! Readers with a cursor end. Each of them leaves the cursor further on than it was, though not
behind the last token, so the calls of the readers and the passes of their loops nest no deeper than
the number of tokens that are left allows. Where they end they have read what the readers of the
grammar read.
-/

namespace SlotC

namespace Cursor

/-- The walk moves past the tokens of the given kind that are ahead and adds their number to
`count`.
-/
def Skips (tokens : List Token) (kind : Kind) (count : Nat) (walk : Walk Nat) (pos : Nat) : Prop :=
  ∃ next, pos ≤ next ∧ next ≤ tokens.length
    ∧ walk.outcome pos
      = some (.ok (count + ((tokens.drop pos).takeWhile fun t => t.kind = kind).length, next))
    ∧ tokens.drop next = (tokens.drop pos).dropWhile fun t => t.kind = kind

/-- Calls that nest up to the given depth follow the readers of the grammar, if the depth allows for
the tokens that are left.
-/
structure Sound (tokens : List Token) (calls : Calls) (depth : Nat) : Prop where
  -- Without a token in between, the statements of a block call a statement, that an expression,
  -- that an operand and that a primary. Each needs one level more than what it calls, and the
  -- primary starts again behind a token.
  bumpWhile : ∀ {pos : Nat} (kind : Kind) (count : Nat), pos ≤ tokens.length →
    tokens.length - pos + 1 ≤ depth → Skips tokens kind count (calls.bumpWhile kind count) pos
  expr : ∀ {pos : Nat} (frame : Frame) (least : Nat), pos ≤ tokens.length →
    4 * (tokens.length - pos) + 3 ≤ depth →
    Follows tokens ((calls.expr frame least).outcome pos)
      (Grammar.expr frame least (tokens.drop pos))
  climb : ∀ {pos : Nat} (frame : Frame) (least : Nat) (left : Expr), pos ≤ tokens.length →
    4 * (tokens.length - pos) + 1 ≤ depth →
    Follows tokens ((calls.climb frame least left).outcome pos)
      (Grammar.climb frame least left (tokens.drop pos))
  unary : ∀ {pos : Nat} (frame : Frame), pos ≤ tokens.length →
    4 * (tokens.length - pos) + 2 ≤ depth →
    Follows tokens ((calls.unary frame).outcome pos) (Grammar.unary frame (tokens.drop pos))
  primary : ∀ {pos : Nat} (frame : Frame), pos ≤ tokens.length →
    4 * (tokens.length - pos) + 1 ≤ depth →
    Follows tokens ((calls.primary frame).outcome pos) (Grammar.primary frame (tokens.drop pos))
  argumentList : ∀ {pos : Nat} (frame : Frame), pos ≤ tokens.length →
    4 * (tokens.length - pos) + 4 ≤ depth →
    Follows tokens ((closing tokens (calls.argumentList frame)).outcome pos)
      (Grammar.argumentList frame (tokens.drop pos))
  stmt : ∀ {pos : Nat} (frame : Frame), pos ≤ tokens.length →
    4 * (tokens.length - pos) + 4 ≤ depth →
    Follows tokens ((calls.stmt frame).outcome pos) (Grammar.stmt frame (tokens.drop pos))
  items : ∀ {pos : Nat} (frame : Frame), pos ≤ tokens.length →
    4 * (tokens.length - pos) + 5 ≤ depth →
    Follows tokens ((calls.items frame).outcome pos) (Grammar.items frame (tokens.drop pos))
  paramList : ∀ {pos : Nat}, pos ≤ tokens.length → 4 * (tokens.length - pos) + 1 ≤ depth →
    Follows tokens ((closing tokens calls.paramList).outcome pos)
      (Grammar.paramList (tokens.drop pos))
  functions : ∀ {pos : Nat}, pos ≤ tokens.length → 4 * (tokens.length - pos) + 1 ≤ depth →
    calls.functions.outcome pos
      = some (((Grammar.functions (tokens.drop pos)).mapError
          (Failure.locate (Token.endOf tokens))).map fun functions => (functions, tokens.length))

variable {tokens : List Token} {calls : Calls} {depth pos bound : Nat} {frame : Frame} {t : Token}
variable {α : Type}

-----------------------------------------------------------------------------------------
-- Types and names
-----------------------------------------------------------------------------------------

theorem bumpWhile_skips (sound : Sound tokens calls depth) (kind : Kind) (count : Nat)
    (within : pos ≤ tokens.length) (enough : tokens.length - pos ≤ depth)
    : Skips tokens kind count (bumpWhile tokens calls kind count) pos := by
  unfold bumpWhile
  rcases drop_cases within with ⟨ended, empty⟩ | ⟨t, found, ahead, inside⟩
  · refine ⟨pos, Nat.le_refl pos, within, ?_, ?_⟩
    · rw [Walk.outcome_bind_ok (outcome_bumpIf_end ended), empty]
      rfl
    · rw [empty]
      rfl
  · by_cases own : t.kind = kind
    · obtain ⟨next, further, inside', ended, left⟩ :=
        sound.bumpWhile kind (count + 1) inside (by omega)
      refine ⟨next, Nat.le_of_succ_le further, inside', ?_, ?_⟩
      · rw [Walk.outcome_bind_ok (outcome_bumpIf_own found own), ahead]
        simp only [List.takeWhile_cons, own, decide_true, ↓reduceIte, List.length_cons]
        rw [ended, Nat.add_right_comm, Nat.add_assoc]
      · rw [ahead, left]
        simp only [List.dropWhile_cons, own, decide_true, ↓reduceIte]
    · refine ⟨pos, Nat.le_refl pos, within, ?_, ?_⟩
      · rw [Walk.outcome_bind_ok (outcome_bumpIf_other found own), ahead]
        simp only [List.takeWhile_cons, own, decide_false]
        rfl
      · rw [ahead]
        simp only [List.dropWhile_cons, own, decide_false]
        rfl

theorem typedName_follows (sound : Sound tokens calls depth) (within : pos ≤ tokens.length)
    (enough : tokens.length - pos ≤ depth)
    : Follows tokens ((typedName tokens calls).outcome pos)
        (Grammar.typedName (tokens.drop pos)) := by
  unfold typedName Grammar.typedName
  refine (typeName_follows within).bind fun further within => ?_
  obtain ⟨after, _, inside, ended, left⟩ := bumpWhile_skips sound .star 0 within (by omega)
  rw [Nat.zero_add] at ended
  have name := identifier_follows inside
  rw [left] at name
  refine .step ended (name.bindAny fun _ within => ?_)
  exact .done within

-----------------------------------------------------------------------------------------
-- Expressions
-----------------------------------------------------------------------------------------

theorem expr_follows (sound : Sound tokens calls depth) (least : Nat)
    (within : pos ≤ tokens.length) (enough : 4 * (tokens.length - pos) + 2 ≤ depth)
    : Follows tokens ((expr calls frame least).outcome pos)
        (Grammar.expr frame least (tokens.drop pos)) := by
  unfold expr
  rw [Grammar.expr]
  refine (sound.unary frame within enough).bind fun further within => ?_
  exact (sound.climb frame least _ within (by omega)).reread

theorem climb_follows (sound : Sound tokens calls depth) (least : Nat) (left : Expr)
    (within : pos ≤ tokens.length) (enough : 4 * (tokens.length - pos) ≤ depth)
    : Follows tokens ((climb tokens calls frame least left).outcome pos)
        (Grammar.climb frame least left (tokens.drop pos)) := by
  unfold climb
  refine .step outcome_peek? ?_
  rcases drop_cases within with ⟨ended, empty⟩ | ⟨t, found, ahead, inside⟩
  · rw [empty, ended, Grammar.climb]
    exact .stay within empty
  · rw [ahead, found, Grammar.climb]
    dsimp only [Option.bind]
    cases t.kind.operator? with
    | none => exact .stay within ahead
    | some operator =>
        dsimp only
        split
        · exact .stay within ahead
        · refine .step (outcome_next found) ?_
          refine (sound.expr frame _ inside (by omega)).bind fun further within => ?_
          exact (sound.climb frame least _ within (by omega)).reread

theorem unary_follows (sound : Sound tokens calls depth) (within : pos ≤ tokens.length)
    (enough : 4 * (tokens.length - pos) + 1 ≤ depth)
    : Follows tokens ((unary tokens calls frame).outcome pos)
        (Grammar.unary frame (tokens.drop pos)) := by
  unfold unary
  rcases drop_cases within with ⟨ended, empty⟩ | ⟨t, found, ahead, inside⟩
  · rw [empty, Grammar.unary]
    exact .fails rfl (Walk.outcome_bind_error (outcome_peek_end ended))
  · have operand := sound.unary frame inside (by omega)
    have unsigned := sound.primary frame within enough
    rw [ahead] at unsigned ⊢
    unfold Grammar.unary
    refine .step (outcome_peek found) ?_
    obtain ⟨kind, text, value, place⟩ := t
    cases kind with
    | plus => exact .step outcome_bump operand.reread
    | minus | ampersand | star =>
        exact .step outcome_bump (operand.bind fun _ within => .done within)
    | sizeofWord =>
        refine .step (outcome_expect_own found rfl) ?_
        rcases drop_cases inside with ⟨ended, empty⟩ | ⟨first, found', ahead', _⟩
        · rw [empty, Grammar.unary] at operand
          rw [empty]
          exact .step (outcome_place_end ended) operand.bindFails
        · rw [ahead'] at operand ⊢
          refine .step (outcome_place found') (operand.bindAny fun _ within => ?_)
          dsimp only
          cases Grammar.sizeOf? frame _ with
          | some size => exact .done within
          | none => exact .fails rfl rfl
    | _ => exact unsigned

theorem argumentList_nil : Grammar.argumentList frame [] = .error .ranOut := by
  rw [Grammar.argumentList, Grammar.expr, Grammar.unary]
  rfl

theorem argumentList_follows (sound : Sound tokens calls depth) (within : pos ≤ tokens.length)
    (enough : 4 * (tokens.length - pos) + 3 ≤ depth)
    : Follows tokens ((closing tokens (argumentList tokens calls frame)).outcome pos)
        (Grammar.argumentList frame (tokens.drop pos)) := by
  have later {next : Nat} (further : pos < next) (within : next ≤ tokens.length)
      : Follows tokens ((more tokens (calls.argumentList frame)).outcome next)
          (Grammar.argumentTail frame (tokens.drop next)) := by
    refine more_follows ?_ ?_ within fun further' within =>
      sound.argumentList frame within (by omega)
    · rw [Grammar.argumentTail]
    · intro t ts
      rw [Grammar.argumentTail]
  refine separated_follows ?_ (sound.expr frame 0 within enough) later
  intro ts
  rw [Grammar.argumentList]

theorem arguments_follows (sound : Sound tokens calls depth) (within : pos ≤ tokens.length)
    (enough : 4 * (tokens.length - pos) + 4 ≤ depth)
    : Follows tokens ((closing tokens (arguments tokens calls frame)).outcome pos)
        (Grammar.arguments frame (tokens.drop pos)) := by
  refine unlessClosed_follows ?_ argumentList_nil ?_ within (sound.argumentList frame within enough)
  · rw [Grammar.arguments]
  · intro t ts
    rw [Grammar.arguments]

theorem primary_follows (sound : Sound tokens calls depth) (within : pos ≤ tokens.length)
    (enough : 4 * (tokens.length - pos) ≤ depth)
    : Follows tokens ((primary tokens calls frame).outcome pos)
        (Grammar.primary frame (tokens.drop pos)) := by
  unfold primary
  rcases drop_cases within with ⟨ended, empty⟩ | ⟨t, found, ahead, inside⟩
  · rw [empty, Grammar.primary]
    exact .fails rfl (Walk.outcome_bind_error (outcome_peek_end ended))
  · rw [ahead]
    unfold Grammar.primary
    refine .step (outcome_peek found) ?_
    obtain ⟨kind, text, value, place⟩ := t
    cases kind with
    | identifier =>
        refine .step (outcome_identifier_own found rfl) (.step outcome_peek? ?_)
        rcases drop_cases inside with ⟨ended, empty⟩ | ⟨next, found', ahead', inside'⟩
        · rw [empty, ended]
          exact .named fun id => .stay inside empty
        · rw [ahead', found']
          obtain ⟨kind, text, value, place⟩ := next
          cases kind with
          | openParen =>
              refine .step (outcome_expect_own found' rfl) (follows_closing ?_)
              exact (arguments_follows sound inside' (by omega)).bind fun _ within => .done within
          | openBracket =>
              refine .named fun id => .step (outcome_expect_own found' rfl) ?_
              refine (sound.expr frame 0 inside' (by omega)).bind fun _ within => ?_
              exact (expect_follows .closeBracket within).bind fun _ within => .done within
          | _ => exact .named fun id => .stay inside ahead'
    | openParen =>
        refine .step (outcome_expect_own found rfl) ?_
        refine (sound.expr frame 0 inside (by omega)).bind fun _ within => ?_
        exact (expect_follows .closeParen within).bind fun _ within => .done within
    | constant => exact .step outcome_bump (.done inside)
    | _ => exact .fails rfl rfl

-----------------------------------------------------------------------------------------
-- Statements
-----------------------------------------------------------------------------------------

theorem condition_follows (sound : Sound tokens calls depth) (within : pos ≤ tokens.length)
    (enough : 4 * (tokens.length - pos) ≤ depth)
    : Follows tokens ((condition tokens calls frame).outcome pos)
        (Grammar.condition frame (tokens.drop pos)) := by
  refine (expect_follows .openParen within).bind fun _ within => ?_
  refine (sound.expr frame 0 within (by omega)).bind fun _ within => ?_
  exact (expect_follows .closeParen within).bind fun _ within => .done within

theorem closedExpr_follows (sound : Sound tokens calls depth) (within : pos ≤ tokens.length)
    (enough : 4 * (tokens.length - pos) + 3 ≤ depth)
    : Follows tokens ((closedExpr tokens calls frame).outcome pos)
        (Grammar.closedExpr frame (tokens.drop pos)) := by
  refine (sound.expr frame 0 within enough).bind fun _ within => ?_
  exact (expect_follows .semicolon within).bind fun _ within => .done within

theorem optionalExpr_follows (sound : Sound tokens calls depth) (close : Kind)
    (within : pos ≤ tokens.length) (enough : 4 * (tokens.length - pos) + 3 ≤ depth)
    : Follows tokens ((optionalExpr tokens calls frame close).outcome pos)
        (Grammar.optionalExpr frame close (tokens.drop pos)) := by
  have present := sound.expr frame 0 within enough
  unfold optionalExpr
  rcases drop_cases within with ⟨ended, empty⟩ | ⟨t, found, ahead, inside⟩
  · rw [empty, Grammar.expr, Grammar.unary] at present
    rw [empty]
    exact .step (outcome_bumpIf_end ended) present.bindFails
  · rw [ahead] at present ⊢
    rw [Grammar.optionalExpr]
    split
    · next own => exact .step (outcome_bumpIf_own found own) (.done inside)
    · next other =>
        refine .step (outcome_bumpIf_other found other) (present.bindAny fun _ within => ?_)
        exact (expect_follows close within).bind fun _ within => .done within

theorem optionalLength_follows (within : pos ≤ tokens.length)
    : Follows tokens ((optionalLength tokens).outcome pos)
        (Grammar.optionalLength (tokens.drop pos)) := by
  unfold optionalLength
  rcases drop_cases within with ⟨ended, empty⟩ | ⟨t, found, ahead, inside⟩
  · rw [empty]
    exact .step (outcome_bumpIf_end ended) (.stay within empty)
  · rw [ahead, Grammar.optionalLength]
    split
    · next own =>
        refine .step (outcome_bumpIf_own found own) ?_
        refine (number_follows inside).bind fun _ within => ?_
        exact (expect_follows .closeBracket within).bind fun _ within => .done within
    · next other =>
        exact .step (outcome_bumpIf_other found other) (.stay within ahead)

theorem declaration_follows (sound : Sound tokens calls depth) (within : pos ≤ tokens.length)
    (enough : tokens.length - pos ≤ depth)
    : Follows tokens ((declaration tokens calls frame).outcome pos)
        (Grammar.declaration frame (tokens.drop pos)) := by
  refine (typedName_follows sound within enough).bind fun _ within => ?_
  refine (optionalLength_follows within).bindLax within fun _ within => ?_
  refine (expect_follows .semicolon within).bind fun _ within => ?_
  unfold resolve
  cases frame.resolve _ with
  | error e => exact .fails rfl rfl
  | ok id => exact .done within

theorem loopHead_follows (sound : Sound tokens calls depth) (within : pos ≤ tokens.length)
    (enough : 4 * (tokens.length - pos) ≤ depth)
    : Follows tokens ((loopHead tokens calls frame).outcome pos)
        (Grammar.loopHead frame (tokens.drop pos)) := by
  refine (expect_follows .openParen within).bind fun _ within => ?_
  refine (optionalExpr_follows sound .semicolon within (by omega)).bind fun _ within => ?_
  refine (optionalExpr_follows sound .semicolon within (by omega)).bind fun _ within => ?_
  exact (optionalExpr_follows sound .closeParen within (by omega)).bind fun _ within => .done within

theorem alternative_follows (sound : Sound tokens calls depth) (within : pos ≤ tokens.length)
    (enough : 4 * (tokens.length - pos) ≤ depth)
    : Follows tokens ((alternative tokens calls frame).outcome pos)
        (Grammar.alternative frame (tokens.drop pos)) := by
  unfold alternative
  rcases drop_cases within with ⟨ended, empty⟩ | ⟨t, found, ahead, inside⟩
  · rw [empty, Grammar.alternative]
    exact .step (outcome_bumpIf_end ended) (.stay within empty)
  · rw [ahead, Grammar.alternative]
    split
    · next own =>
        refine .step (outcome_bumpIf_own found own) ?_
        exact (sound.stmt frame inside (by omega)).bind fun _ within => .done within
    · next other =>
        exact .step (outcome_bumpIf_other found other) (.stay within ahead)

theorem block_follows (sound : Sound tokens calls depth) (within : pos ≤ tokens.length)
    (enough : 4 * (tokens.length - pos) + 1 ≤ depth)
    : Follows tokens ((block tokens calls frame).outcome pos)
        (Grammar.block frame (tokens.drop pos)) := by
  unfold block Grammar.block
  refine (expect_follows .openBrace within).bind fun _ within => ?_
  exact (sound.items frame within (by omega)).reread

theorem items_follows (sound : Sound tokens calls depth) (within : pos ≤ tokens.length)
    (enough : 4 * (tokens.length - pos) + 4 ≤ depth)
    : Follows tokens ((items tokens calls frame).outcome pos)
        (Grammar.items frame (tokens.drop pos)) := by
  have first := sound.stmt frame within enough
  unfold items
  rcases drop_cases within with ⟨ended, empty⟩ | ⟨t, found, ahead, inside⟩
  · rw [empty, Grammar.stmt] at first
    rw [empty, Grammar.items]
    exact .step (outcome_bumpIf_end ended) first.bindFails
  · rw [ahead] at first
    rw [ahead, Grammar.items]
    split
    · next own => exact .step (outcome_bumpIf_own found own) (.done inside)
    · next other =>
        refine .step (outcome_bumpIf_other found other) (first.bindAny fun fewer within => ?_)
        have further := lt_of_fewer ahead fewer
        exact (sound.items frame within (by omega)).bind fun _ within => .done within

theorem stmt_follows (sound : Sound tokens calls depth) (within : pos ≤ tokens.length)
    (enough : 4 * (tokens.length - pos) + 3 ≤ depth)
    : Follows tokens ((stmt tokens calls frame).outcome pos)
        (Grammar.stmt frame (tokens.drop pos)) := by
  -- The readers that start at the same token are followed before the tokens ahead are split, since
  -- the bound of a reading is their number.
  have closed : Follows tokens ((closedExpr tokens calls frame).outcome pos)
      (Grammar.closedExpr frame (tokens.drop pos)) := closedExpr_follows sound within enough
  have declared : Follows tokens ((declaration tokens calls frame).outcome pos)
      (Grammar.declaration frame (tokens.drop pos)) :=
    declaration_follows sound within (by omega)
  unfold stmt
  rcases drop_cases within with ⟨ended, empty⟩ | ⟨t, found, ahead, inside⟩
  · rw [empty, Grammar.stmt]
    exact .fails rfl (Walk.outcome_bind_error (outcome_peek_end ended))
  · rw [ahead] at closed declared ⊢
    unfold Grammar.stmt
    refine .step (outcome_peek found) ?_
    obtain ⟨kind, text, value, place⟩ := t
    cases kind with
    | returnWord =>
        refine .step (outcome_expect_own found rfl) ?_
        exact (closedExpr_follows sound inside (by omega)).bind fun _ within => .done within
    | forWord =>
        refine .step (outcome_expect_own found rfl) ?_
        refine (loopHead_follows sound inside (by omega)).bind fun _ within => ?_
        exact (sound.stmt frame within (by omega)).bind fun _ within => .done within
    | whileWord =>
        refine .step (outcome_expect_own found rfl) ?_
        refine (condition_follows sound inside (by omega)).bind fun _ within => ?_
        exact (sound.stmt frame within (by omega)).bind fun _ within => .done within
    | ifWord =>
        refine .step (outcome_expect_own found rfl) ?_
        refine (condition_follows sound inside (by omega)).bind fun _ within => ?_
        refine (sound.stmt frame within (by omega)).bind fun _ within => ?_
        refine (alternative_follows sound within (by omega)).bindLax within fun _ within => ?_
        exact .done within
    | openBrace =>
        unfold block
        rw [bind_assoc]
        refine .step (outcome_expect_own found rfl) ?_
        exact (sound.items frame inside (by omega)).bind fun _ within => .done within
    | type => exact declared.bindAny fun _ within => .done within
    | _ => exact closed.bindAny fun _ within => .done within

-----------------------------------------------------------------------------------------
-- Functions
-----------------------------------------------------------------------------------------

theorem paramList_nil : Grammar.paramList [] = .error .ranOut := by
  rw [Grammar.paramList]
  rfl

theorem paramList_follows (sound : Sound tokens calls depth) (within : pos ≤ tokens.length)
    (enough : 4 * (tokens.length - pos) ≤ depth)
    : Follows tokens ((closing tokens (paramList tokens calls)).outcome pos)
        (Grammar.paramList (tokens.drop pos)) := by
  have later {next : Nat} (further : pos < next) (within : next ≤ tokens.length)
      : Follows tokens ((more tokens calls.paramList).outcome next)
          (Grammar.paramTail (tokens.drop next)) := by
    refine more_follows ?_ ?_ within fun _ within => sound.paramList within (by omega)
    · rw [Grammar.paramTail]
    · intro t ts
      rw [Grammar.paramTail]
  refine separated_follows ?_ (typedName_follows sound within (by omega)) later
  intro ts
  rw [Grammar.paramList]

theorem params_follows (sound : Sound tokens calls depth) (within : pos ≤ tokens.length)
    (enough : 4 * (tokens.length - pos) + 1 ≤ depth)
    : Follows tokens ((closing tokens (params tokens calls)).outcome pos)
        (Grammar.params (tokens.drop pos)) :=
  unlessClosed_follows rfl paramList_nil (fun _ _ => rfl) within (sound.paramList within enough)

theorem function_follows (sound : Sound tokens calls depth) (within : pos ≤ tokens.length)
    (enough : 4 * (tokens.length - pos) ≤ depth)
    : Follows tokens ((function tokens calls).outcome pos)
        (Grammar.function (tokens.drop pos)) := by
  unfold function
  refine (typedName_follows sound within (by omega)).bind fun _ within => ?_
  refine (expect_follows .openParen within).bind fun _ within => follows_closing ?_
  refine (params_follows sound within (by omega)).bind fun _ within => ?_
  unfold braceWindow
  rw [bind_assoc]
  refine .step outcome_get ?_
  refine .located fun window => .checked fun frame => ?_
  exact (block_follows sound within (by omega)).bind fun _ within => .done within

/-- Functions are read until the cursor is at the end. -/
theorem functions_end (sound : Sound tokens calls depth) (within : pos ≤ tokens.length)
    (enough : 4 * (tokens.length - pos) ≤ depth)
    : (functions tokens calls).outcome pos
      = some (((Grammar.functions (tokens.drop pos)).mapError
          (Failure.locate (Token.endOf tokens))).map
            fun functions => (functions, tokens.length)) := by
  have first := function_follows sound within enough
  unfold functions
  refine (Walk.outcome_bind_ok outcome_atEnd).trans ?_
  rcases drop_cases within with ⟨ended, empty⟩ | ⟨t, found, ahead, inside⟩
  · obtain rfl : pos = tokens.length := Nat.le_antisymm within (List.getElem?_eq_none_iff.mp ended)
    rw [empty, Grammar.functions]
    simp only [Nat.le_refl, decide_true, ↓reduceIte]
    rfl
  · have before : ¬ tokens.length ≤ pos := Nat.not_le_of_lt inside
    rw [ahead] at first
    rw [ahead, Grammar.functions]
    simp only [before, decide_false, ↓reduceIte, Bool.false_eq_true]
    cases first with
    | @reads f next within ended reads =>
        obtain ⟨fewer, same⟩ := reads
        have further := lt_of_fewer ahead fewer
        have rest := sound.functions within (by omega)
        rw [Walk.outcome_bind_ok ended, same]
        cases later : Grammar.functions (tokens.drop next) with
        | ok fs =>
            rw [later] at rest
            rw [Walk.outcome_bind_ok rest]
            simp only [bind, Except.bind, later]
            rfl
        | error failure =>
            rw [later] at rest
            rw [Walk.outcome_bind_error rest]
            simp only [bind, Except.bind, later]
            rfl
    | fails failed ended =>
        rw [Walk.outcome_bind_error ended, failed]
        rfl

theorem answered_sound (sound : Sound tokens calls depth)
    : Sound tokens (answered tokens calls) (depth + 1) where
  bumpWhile kind count within enough := bumpWhile_skips sound kind count within (by omega)
  expr _ least within enough := expr_follows sound least within (by omega)
  climb _ least left within enough := climb_follows sound least left within (by omega)
  unary _ within enough := unary_follows sound within (by omega)
  primary _ within enough := primary_follows sound within (by omega)
  argumentList _ within enough := argumentList_follows sound within (by omega)
  stmt _ within enough := stmt_follows sound within (by omega)
  items _ within enough := items_follows sound within (by omega)
  paramList within enough := paramList_follows sound within (by omega)
  functions within enough := functions_end sound within (by omega)

theorem nested_sound (tokens : List Token) (depth : Nat)
    : Sound tokens (nested tokens depth) depth := by
  induction depth with
  | zero => constructor <;> intros <;> omega
  | succ depth ih => exact answered_sound ih

-----------------------------------------------------------------------------------------
-- Where readers end
-----------------------------------------------------------------------------------------

/-- The walk ends with the outcome if its calls may nest to a depth of four for every token that is
left and four more, and with the same outcome if they may nest deeper.
-/
def EndsWith (tokens : List Token) (walk : Calls → Walk α) (pos : Nat)
    (outcome : Except SyntaxError (α × Nat)) : Prop :=
  ∀ depth, 4 * (tokens.length - pos) + 4 ≤ depth →
    (walk (nested tokens depth)).outcome pos = some outcome

/-- The walk ends with some outcome. -/
def Ends (tokens : List Token) (walk : Calls → Walk α) (pos : Nat) : Prop :=
  ∃ outcome, EndsWith tokens walk pos outcome

/-- The walk ends. If it succeeds the cursor is further on than it was and not behind the end, and
the reader has read the same up to there. If it fails the reader does with the same error.
-/
inductive Advances (tokens : List Token) (walk : Calls → Walk α) (pos : Nat)
    (x : Reading α bound) : Prop where
  | reads {a : α} {next : Nat} (ends : EndsWith tokens walk pos (.ok (a, next)))
      (further : pos < next) (within : next ≤ tokens.length) (reads : Reads x a (tokens.drop next))
  | fails {failure : Failure}
      (ends : EndsWith tokens walk pos (.error (failure.locate (Token.endOf tokens))))
      (failed : x = .error failure)

section

variable {walk : Calls → Walk α}

/-- A walk that follows a reader at every depth comes to the same at all of them. -/
theorem endsWith_of_follows {x : Reading α bound} {outcome : Except SyntaxError (α × Nat)}
    (follows : ∀ depth, 4 * (tokens.length - pos) + 4 ≤ depth →
      Follows tokens ((walk (nested tokens depth)).outcome pos) x)
    (ended : (walk (nested tokens (4 * (tokens.length - pos) + 4))).outcome pos = some outcome)
    : EndsWith tokens walk pos outcome := by
  intro depth enough
  have same := (follows depth enough).unique (follows _ (Nat.le_refl _))
  exact same.trans ended

theorem advances_of_follows {x : Reading α (tokens.drop pos).length}
    (follows : ∀ depth, 4 * (tokens.length - pos) + 4 ≤ depth →
      Follows tokens ((walk (nested tokens depth)).outcome pos) x)
    : Advances tokens walk pos x := by
  cases follows _ (Nat.le_refl _) with
  | reads within ended reads =>
      have further := lt_of_fewer rfl reads.fewer
      exact .reads (endsWith_of_follows follows ended) further within reads
  | fails failed ended => exact .fails (endsWith_of_follows follows ended) failed

theorem ends_of_follows {x : Reading α bound}
    (follows : ∀ depth, 4 * (tokens.length - pos) + 4 ≤ depth →
      Follows tokens ((walk (nested tokens depth)).outcome pos) x)
    : Ends tokens walk pos := by
  obtain ⟨outcome, ended⟩ := (follows _ (Nat.le_refl _)).ended
  exact ⟨outcome, endsWith_of_follows follows ended⟩

/-- A list that is read up to its parenthesis is read. -/
theorem ends_of_closing {list : Calls → Walk (List α)} {x : Reading (List α) bound}
    (follows : Follows tokens
      ((closing tokens (list (nested tokens (4 * (tokens.length - pos) + 4)))).outcome pos) x)
    (same : ∀ depth, 4 * (tokens.length - pos) + 4 ≤ depth →
      (list (nested tokens depth)).outcome pos
        = (list (nested tokens (4 * (tokens.length - pos) + 4))).outcome pos)
    : Ends tokens list pos := by
  obtain ⟨_, closed⟩ := follows.ended
  obtain ⟨outcome, ended⟩ := Walk.outcome_of_bind closed
  exact ⟨outcome, fun depth enough => (same depth enough).trans ended⟩

end

/-- A loop over a list comes to the same at two depths. Its readers leave the parenthesis that the
readers of the grammar read, so this is shown pass by pass.
-/
theorem list_congr (list : Calls → Walk (List α)) (element : Calls → Walk α)
    (read : (ts : List Token) → Reading α ts.length)
    (pass : ∀ calls, list (answered tokens calls) = separated tokens (element calls) (list calls))
    (follows : ∀ {depth pos}, pos ≤ tokens.length → 4 * (tokens.length - pos) + 3 ≤ depth →
      Follows tokens ((element (nested tokens depth)).outcome pos) (read (tokens.drop pos)))
    {depth depth' : Nat} (within : pos ≤ tokens.length)
    (enough : 4 * (tokens.length - pos) + 4 ≤ depth)
    (enough' : 4 * (tokens.length - pos) + 4 ≤ depth')
    : (list (nested tokens depth)).outcome pos = (list (nested tokens depth')).outcome pos := by
  induction depth generalizing depth' pos with
  | zero => omega
  | succ depth ih =>
      obtain ⟨depth', rfl⟩ : ∃ before, depth' = before + 1 := ⟨depth' - 1, by omega⟩
      have first := follows within (Nat.le_of_succ_le_succ enough)
      have first' := follows within (Nat.le_of_succ_le_succ enough')
      unfold nested
      rw [pass, pass]
      exact outcome_separated_congr first first' fun further within =>
        ih within (by omega) (by omega)

theorem arguments_end (within : pos ≤ tokens.length)
    : Ends tokens (fun calls => arguments tokens calls frame) pos := by
  refine ends_of_closing (arguments_follows (nested_sound tokens _) within (Nat.le_refl _)) ?_
  intro depth enough
  refine outcome_unlessClosed_congr ?_
  refine list_congr (·.argumentList frame) (·.expr frame 0) (Grammar.expr frame 0) (fun _ => rfl) ?_
    within enough (Nat.le_refl _)
  exact fun within enough => (nested_sound tokens _).expr frame 0 within enough

theorem params_end (within : pos ≤ tokens.length)
    : Ends tokens (fun calls => params tokens calls) pos := by
  refine ends_of_closing (params_follows (nested_sound tokens _) within (by omega)) ?_
  intro depth enough
  refine outcome_unlessClosed_congr ?_
  refine list_congr (·.paramList) (typedName tokens) Grammar.typedName (fun _ => rfl) ?_
    within enough (Nat.le_refl _)
  exact fun within enough => typedName_follows (nested_sound tokens _) within (by omega)

end Cursor

open Cursor

/-- From every position the readers of expressions, operands, statements, blocks and functions end.
One that succeeds leaves the cursor further on than it was and not behind the end. So the loops end
that extend an expression and that read arguments, parameters, the statements of a block and the
functions of a program. From the start of the tokens the functions are those of the program that
they spell.
-/
theorem readers_advance (tokens : List Token) (pos : Nat) (within : pos ≤ tokens.length)
    (frame : Frame)
    : (∀ least, Advances tokens (fun calls => expr calls frame least) pos
        (Grammar.expr frame least (tokens.drop pos)))
      ∧ Advances tokens (fun calls => unary tokens calls frame) pos
        (Grammar.unary frame (tokens.drop pos))
      ∧ Advances tokens (fun calls => primary tokens calls frame) pos
        (Grammar.primary frame (tokens.drop pos))
      ∧ Advances tokens (fun calls => stmt tokens calls frame) pos
        (Grammar.stmt frame (tokens.drop pos))
      ∧ Advances tokens (fun calls => block tokens calls frame) pos
        (Grammar.block frame (tokens.drop pos))
      ∧ Advances tokens (fun calls => function tokens calls) pos
        (Grammar.function (tokens.drop pos))
      ∧ (∀ least left, Ends tokens (fun calls => climb tokens calls frame least left) pos)
      ∧ Ends tokens (fun calls => arguments tokens calls frame) pos
      ∧ Ends tokens (fun calls => params tokens calls) pos
      ∧ Ends tokens (fun calls => items tokens calls frame) pos
      ∧ Ends tokens (fun calls => functions tokens calls) pos
      ∧ EndsWith tokens (fun calls => functions tokens calls) 0
        ((Program.ofTokens tokens).map fun program => (program.functions, tokens.length)) := by
  have sound := nested_sound tokens
  refine ⟨fun least => ?_, ?_, ?_, ?_, ?_, ?_, fun least left => ?_, arguments_end within,
    params_end within, ?_, ?_, fun depth _ => ?_⟩
  · exact advances_of_follows fun depth enough => expr_follows (sound depth) least within (by omega)
  · exact advances_of_follows fun depth enough => unary_follows (sound depth) within (by omega)
  · exact advances_of_follows fun depth enough => primary_follows (sound depth) within (by omega)
  · exact advances_of_follows fun depth enough => stmt_follows (sound depth) within (by omega)
  · exact advances_of_follows fun depth enough => block_follows (sound depth) within (by omega)
  · exact advances_of_follows fun depth enough => function_follows (sound depth) within (by omega)
  · exact ends_of_follows fun depth enough =>
      climb_follows (sound depth) least left within (by omega)
  · exact ends_of_follows fun depth enough => items_follows (sound depth) within enough
  · exact ⟨_, fun depth enough => functions_end (sound depth) within (by omega)⟩
  · rw [functions_end (sound depth) (Nat.zero_le _) (by omega), List.drop_zero]
    unfold Program.ofTokens
    cases Grammar.functions tokens with
    | ok functions => rfl
    | error failure => rfl

namespace Unclosed

/-- A statement in a block that is not closed. -/
def tokens : List Token :=
  [⟨.openBrace, "\x7b", 0, 0⟩, ⟨.constant, "1", 1, 2⟩, ⟨.plus, "+", 0, 4⟩, ⟨.constant, "2", 2, 6⟩,
    ⟨.semicolon, ";", 0, 7⟩, ⟨.openParen, "(", 0, 9⟩]

end Unclosed

/-- From the token after the brace the statement is read up to the last token, and the loop over the
block ends.
-/
theorem readers_advance_unclosed
    : 1 ≤ Unclosed.tokens.length
      ∧ (stmt Unclosed.tokens (nested Unclosed.tokens 24) .empty).outcome 1
        = some (.ok (.expr (.binary .add (.constant 1) (.constant 2)), 5))
      ∧ Advances Unclosed.tokens (fun calls => stmt Unclosed.tokens calls .empty) 1
        (Grammar.stmt .empty (Unclosed.tokens.drop 1))
      ∧ Ends Unclosed.tokens (fun calls => items Unclosed.tokens calls .empty) 1 := by
  have inside : 1 ≤ Unclosed.tokens.length := by decide
  obtain ⟨_, _, _, statement, _, _, _, _, _, loop, _⟩ :=
    readers_advance Unclosed.tokens 1 inside .empty
  exact ⟨inside, rfl, statement, loop⟩

end SlotC
