import SlotC.Proofs.Grammar.Blame

/-! What the readers of a body see. Braces are read by blocks only, each with the one that closes
it, so a reader in a body stops before the brace that closes it. It never runs out of tokens, and
what it reads or rejects does not depend on the tokens after that brace.
-/

namespace SlotC

/-- The tokens are the same up to the brace that closes the outermost of `depth` blocks. What comes
after it is `us` in the first and `us'` in the second list. The first list is the end of `all`.
-/
inductive Token.Ahead (all us us' : List Token) : Nat → List Token → List Token → Prop where
  | done (within : us <:+ all) : Ahead all us us' 0 us us'
  | cons {depth : Nat} {t : Token} {ts ts' : List Token} (within : t :: ts <:+ all)
      (more : Ahead all us us' (t.kind.depthAfter (depth + 1)) ts ts')
      : Ahead all us us' (depth + 1) (t :: ts) (t :: ts')

/-- Both readers failed with the same error, and a token is to blame for it. -/
inductive Failure.Blamed (all : List Token) : Failure → Failure → Prop where
  | mk {error : SyntaxError} (blames : error.Blames all)
      : Blamed all (.rejected error) (.rejected error)

section

variable {all us us' : List Token} {depth : Nat} {α β γ : Type} {bound bound' : Nat}

/-- The same value is read and the same number of blocks is left open, or both readers fail with
the same error.
-/
abbrev ReadWithin (all us us' : List Token) (depth : Nat) (x : Reading α bound)
    (y : Reading α bound') : Prop :=
  Agree (Failure.Blamed all)
    (fun p p' => Token.Ahead all us us' depth p.rest p'.rest ∧ p'.value = p.value) x y

theorem ReadWithin.bind {R : β → γ → Prop} {x : Reading α bound} {y : Reading α bound'}
    {k : Parsed α bound → Except Failure β} {k' : Parsed α bound' → Except Failure γ}
    (first : ReadWithin all us us' depth x y)
    (next : ∀ {a rest rest' fewer fewer'}, Reads x a rest →
      Token.Ahead all us us' depth rest rest' →
      Agree (Failure.Blamed all) R (k ⟨a, rest, fewer⟩) (k' ⟨a, rest', fewer'⟩))
    : Agree (Failure.Blamed all) R (x >>= k) (y >>= k') := by
  cases first with
  | @ok p p' results =>
      obtain ⟨a, rest, fewer⟩ := p
      obtain ⟨a', rest', fewer'⟩ := p'
      obtain ⟨h, same⟩ := results
      cases same
      exact next ⟨fewer, rfl⟩ h
  | error errors => exact .error errors

namespace Token

variable {t : Token} {ts ts' : List Token} {kind : Kind}

theorem Ahead.next (h : Ahead all us us' (t.kind.depthAfter depth) ts ts') (own : t.kind = kind)
    : Ahead all us us' (kind.depthAfter depth) ts ts' :=
  own ▸ h

theorem Ahead.suffix (h : Ahead all us us' depth ts ts') : ts <:+ all := by
  cases h with
  | done within | cons within _ => exact within

theorem Ahead.eq_of_done (h : Ahead all us us' 0 ts ts') : ts = us ∧ ts' = us' := by
  cases h
  exact ⟨rfl, rfl⟩

/-- The first token is one of all. -/
theorem mem_of_cons_suffix (within : t :: ts <:+ all) : t ∈ all :=
  within.subset List.mem_cons_self

/-- Tokens that close blocks may be followed by any others. -/
theorem Closing.ahead {w : List Token} (closing : Closing depth w) (within : w ++ us <:+ all)
    : Ahead all us us' depth (w ++ us) (w ++ us') := by
  induction closing with
  | done => exact .done within
  | cons _ ih => exact .cons within (ih ((List.suffix_cons _ _).trans within))

/-- Stars are no braces. -/
theorem Ahead.skipStars {ts ts' : List Token} (h : Ahead all us us' (depth + 1) ts ts')
    : Ahead all us us' (depth + 1) (Declarator.skipStars ts) (Declarator.skipStars ts')
      ∧ Declarator.countStars ts' = Declarator.countStars ts := by
  match ts, ts', h with
  | t :: ts, _ :: ts', .cons within h =>
      by_cases star : t.kind = .star
      · have rest := Ahead.skipStars (h.next star)
        unfold Declarator.skipStars Declarator.countStars at rest ⊢
        simpa [List.dropWhile_cons, List.takeWhile_cons, star] using rest
      · unfold Declarator.skipStars Declarator.countStars
        simpa [List.dropWhile_cons, List.takeWhile_cons, star] using Ahead.cons within h

end Token

theorem Kind.depthAfter_of_isBrace {kind : Kind} (plain : kind.isBrace = false)
    : kind.depthAfter depth = depth := by
  cases kind with
  | openBrace | closeBrace => cases plain
  | _ => rfl

/-- Operators are no braces. -/
theorem Kind.isBrace_of_operator? {kind : Kind} {o : Operator} (own : kind.operator? = some o)
    : kind.isBrace = false := by
  cases kind with
  | openBrace | closeBrace => cases own
  | _ => rfl

end

namespace Grammar

variable {all us us' : List Token} {depth : Nat} {frame : Frame} {ts ts' : List Token}

-----------------------------------------------------------------------------------------
-- Single tokens
-----------------------------------------------------------------------------------------

/-- What reads one token of a kind has that token to blame if it is of another kind. -/
theorem one_within (read : (ts : List Token) → Reading Token ts.length) (kind : Kind)
    (cause : Token → SyntaxError.Cause)
    (blamed : ∀ {t : Token}, t ∈ all → t.kind ≠ kind → SyntaxError.Blames all ⟨cause t, t.pos⟩)
    (some : ∀ t ts, read (t :: ts) = if t.kind = kind then .ok ⟨t, ts, fewer_tail t ts⟩
      else .error (.reject (cause t) t))
    (h : Token.Ahead all us us' (depth + 1) ts ts')
    : ReadWithin all us us' (kind.depthAfter (depth + 1)) (read ts) (read ts') := by
  cases h with
  | cons within h =>
      rw [some, some]
      refine .ite (fun own => .ok ⟨h.next own, rfl⟩) fun other => ?_
      exact .error (.mk (blamed (Token.mem_of_cons_suffix within) other))

theorem expect_within (kind : Kind) (h : Token.Ahead all us us' (depth + 1) ts ts')
    : ReadWithin all us us' (kind.depthAfter (depth + 1)) (expect kind ts) (expect kind ts') :=
  one_within (expect kind) kind (.expected kind) .expected (fun _ _ => rfl) h

theorem identifier_within (h : Token.Ahead all us us' (depth + 1) ts ts')
    : ReadWithin all us us' (depth + 1) (identifier ts) (identifier ts') :=
  one_within identifier .identifier .expectedIdentifier .expectedIdentifier (fun _ _ => rfl) h

theorem number_within (h : Token.Ahead all us us' (depth + 1) ts ts')
    : ReadWithin all us us' (depth + 1) (number ts) (number ts') :=
  one_within number .constant .expectedNumber .expectedNumber (fun _ _ => rfl) h

theorem typeName_within (h : Token.Ahead all us us' (depth + 1) ts ts')
    : ReadWithin all us us' (depth + 1) (typeName ts) (typeName ts') := by
  cases h with
  | @cons _ t ts ts' within h =>
      have inside := Token.mem_of_cons_suffix within
      obtain ⟨kind, text, value, pos⟩ := t
      cases kind with
      | type scalar => exact .ok ⟨h, rfl⟩
      | _ => exact .error (.mk (.expectedType inside rfl))

theorem typedName_within (h : Token.Ahead all us us' (depth + 1) ts ts')
    : ReadWithin all us us' (depth + 1) (typedName ts) (typedName ts') := by
  refine (typeName_within h).bind fun _ h => ?_
  obtain ⟨afterStars, stars⟩ := h.skipStars
  refine (identifier_within afterStars).bind fun _ h => ?_
  dsimp only
  rw [stars]
  exact .ok ⟨h, rfl⟩

-----------------------------------------------------------------------------------------
-- Expressions
-----------------------------------------------------------------------------------------

theorem named_within {t : Token} (inside : t ∈ all) (own : t.kind = .identifier)
    : Agree (Failure.Blamed all) Eq (named frame t) (named frame t) := by
  unfold named Frame.resolve
  cases frame.lookup? t.text with
  | some id => exact .ok rfl
  | none => exact .error (.mk (.unknownIdentifier inside own))

mutual

/-- An expression is read from the tokens before the brace that closes the block around it. -/
theorem expr_within (least : Nat) {ts ts' : List Token}
    (h : Token.Ahead all us us' (depth + 1) ts ts')
    : ReadWithin all us us' (depth + 1) (expr frame least ts) (expr frame least ts') := by
  rw [expr, expr]
  refine (unary_within h).bind fun _ h => ?_
  exact (climb_within least _ h).bind fun _ h => .ok ⟨h, rfl⟩
termination_by 4 * ts.length + 2
decreasing_by all_goals omega

theorem climb_within (least : Nat) (left : Expr) {ts ts' : List Token}
    (h : Token.Ahead all us us' (depth + 1) ts ts')
    : ReadWithin all us us' (depth + 1) (climb frame least left ts)
        (climb frame least left ts') := by
  match ts, ts', h with
  | t :: ts, _ :: ts', .cons within h =>
      rw [climb, climb]
      cases own : t.kind.operator? with
      | none => exact .ok ⟨.cons within h, rfl⟩
      | some operator =>
          refine .ite (fun _ => .ok ⟨.cons within h, rfl⟩) fun _ => ?_
          rw [Kind.depthAfter_of_isBrace (Kind.isBrace_of_operator? own)] at h
          refine (expr_within _ h).bind fun _ h => ?_
          exact (climb_within least _ h).bind fun _ h => .ok ⟨h, rfl⟩
termination_by 4 * ts.length
decreasing_by all_goals simp only [List.length_cons] at *; omega

theorem unary_within {ts ts' : List Token} (h : Token.Ahead all us us' (depth + 1) ts ts')
    : ReadWithin all us us' (depth + 1) (unary frame ts) (unary frame ts') := by
  match ts, ts', h with
  | ⟨kind, text, value, pos⟩ :: ts, _ :: ts', .cons within h =>
      unfold unary
      cases kind with
      | plus => exact (unary_within h).bind fun _ h => .ok ⟨h, rfl⟩
      | minus | ampersand | star => exact (unary_within h).bind fun _ h => .ok ⟨h, rfl⟩
      | sizeofWord =>
          have operand : ReadWithin all us us' (depth + 1) (unary frame ts) (unary frame ts') :=
            unary_within h
          cases h with
          | cons _ h =>
              refine operand.bind fun _ h => ?_
              dsimp only
              split
              · exact .ok ⟨h, rfl⟩
              · obtain ⟨before, same⟩ := within
                exact .error (.mk (.sizeofOperand same.symm rfl))
      | identifier | openParen | constant => exact primary_within (by simp) (.cons within h)
      | _ =>
          unfold primary
          exact .error (.mk (.badFactor (Token.mem_of_cons_suffix within) rfl))
termination_by 4 * ts.length + 1
decreasing_by all_goals simp only [List.length_cons] at *; omega

theorem primary_within {ts ts' : List Token}
    (starts : ∀ t ∈ ts.head?, t.kind = .identifier ∨ t.kind = .openParen ∨ t.kind = .constant)
    (h : Token.Ahead all us us' (depth + 1) ts ts')
    : ReadWithin all us us' (depth + 1) (primary frame ts) (primary frame ts') := by
  match ts, ts', h, starts with
  | ⟨kind, text, value, pos⟩ :: ts, _ :: ts', .cons within h, starts =>
      have inside := Token.mem_of_cons_suffix within
      unfold primary
      cases kind with
      | identifier =>
          have inBrackets {r r' : List Token} (fewer : r.length < ts.length)
              (h : Token.Ahead all us us' (depth + 1) r r')
              : ReadWithin all us us' (depth + 1) (expr frame 0 r) (expr frame 0 r') :=
            expr_within 0 h
          have inParens {r r' : List Token} (fewer : r.length < ts.length)
              (h : Token.Ahead all us us' (depth + 1) r r')
              : ReadWithin all us us' (depth + 1) (arguments frame r) (arguments frame r') :=
            arguments_within h
          cases h with
          | @cons _ next ts ts' later h =>
              obtain ⟨kind, text, value, pos⟩ := next
              cases kind with
              | openParen => exact (inParens (fewer_tail _ ts) h).bind fun _ h => .ok ⟨h, rfl⟩
              | openBracket =>
                  refine (named_within inside rfl).bind fun same => ?_
                  subst same
                  refine (inBrackets (fewer_tail _ ts) h).bind fun _ h => ?_
                  exact (expect_within .closeBracket h).bind fun _ h => .ok ⟨h, rfl⟩
              | _ =>
                  refine (named_within inside rfl).bind fun same => ?_
                  exact .ok ⟨.cons later h, same.symm⟩
      | openParen =>
          refine (expr_within 0 h).bind fun _ h => ?_
          exact (expect_within .closeParen h).bind fun _ h => .ok ⟨h, rfl⟩
      | constant => exact .ok ⟨h, rfl⟩
      | _ => simp at starts
termination_by 4 * ts.length
decreasing_by all_goals simp only [List.length_cons] at *; omega

theorem arguments_within {ts ts' : List Token} (h : Token.Ahead all us us' (depth + 1) ts ts')
    : ReadWithin all us us' (depth + 1) (arguments frame ts) (arguments frame ts') := by
  match ts, ts', h with
  | t :: ts, _ :: ts', .cons within h =>
      rw [arguments, arguments]
      exact .ite (fun own => .ok ⟨h.next own, rfl⟩) fun _ => argumentList_within (.cons within h)
termination_by 4 * ts.length + 4
decreasing_by all_goals simp only [List.length_cons] at *; omega

theorem argumentList_within {ts ts' : List Token} (h : Token.Ahead all us us' (depth + 1) ts ts')
    : ReadWithin all us us' (depth + 1) (argumentList frame ts) (argumentList frame ts') := by
  rw [argumentList, argumentList]
  refine (expr_within 0 h).bind fun _ h => ?_
  exact (argumentTail_within h).bind fun _ h => .ok ⟨h, rfl⟩
termination_by 4 * ts.length + 3
decreasing_by all_goals omega

theorem argumentTail_within {ts ts' : List Token} (h : Token.Ahead all us us' (depth + 1) ts ts')
    : ReadWithin all us us' (depth + 1) (argumentTail frame ts) (argumentTail frame ts') := by
  match ts, ts', h with
  | t :: ts, _ :: ts', .cons within h =>
      rw [argumentTail, argumentTail]
      refine .ite (fun own => ?_) fun _ => ?_
      · exact (argumentList_within (h.next own)).bind fun _ h => .ok ⟨h, rfl⟩
      · exact (expect_within .closeParen (.cons within h)).bind fun _ h => .ok ⟨h, rfl⟩
termination_by 4 * ts.length
decreasing_by all_goals simp only [List.length_cons] at *; omega

end

-----------------------------------------------------------------------------------------
-- Statements
-----------------------------------------------------------------------------------------

theorem condition_within (h : Token.Ahead all us us' (depth + 1) ts ts')
    : ReadWithin all us us' (depth + 1) (condition frame ts) (condition frame ts') := by
  refine (expect_within .openParen h).bind fun _ h => ?_
  refine (expr_within 0 h).bind fun _ h => ?_
  exact (expect_within .closeParen h).bind fun _ h => .ok ⟨h, rfl⟩

theorem optionalExpr_within {close : Kind} (plain : close.isBrace = false)
    (h : Token.Ahead all us us' (depth + 1) ts ts')
    : ReadWithin all us us' (depth + 1) (optionalExpr frame close ts)
        (optionalExpr frame close ts') := by
  have passed : close.depthAfter (depth + 1) = depth + 1 := Kind.depthAfter_of_isBrace plain
  cases h with
  | cons within h =>
      refine .ite (fun own => .ok ⟨passed ▸ h.next own, rfl⟩) fun _ => ?_
      refine (expr_within 0 (.cons within h)).bind fun _ h => ?_
      exact (expect_within close h).bind fun _ h => .ok ⟨passed ▸ h, rfl⟩

theorem closedExpr_within (h : Token.Ahead all us us' (depth + 1) ts ts')
    : ReadWithin all us us' (depth + 1) (closedExpr frame ts) (closedExpr frame ts') := by
  refine (expr_within 0 h).bind fun _ h => ?_
  exact (expect_within .semicolon h).bind fun _ h => .ok ⟨h, rfl⟩

theorem optionalLength_within (h : Token.Ahead all us us' (depth + 1) ts ts')
    : ReadWithin all us us' (depth + 1) (optionalLength ts) (optionalLength ts') := by
  cases h with
  | cons within h =>
      refine .ite (fun own => ?_) fun _ => .ok ⟨.cons within h, rfl⟩
      refine (number_within (h.next own)).bind fun _ h => ?_
      exact (expect_within .closeBracket h).bind fun _ h => .ok ⟨h, rfl⟩

theorem declaration_within (h : Token.Ahead all us us' (depth + 1) ts ts')
    : ReadWithin all us us' (depth + 1) (declaration frame ts) (declaration frame ts') := by
  have suffix := h.suffix
  refine (typedName_within h).bind fun {param rest _ _ _} read h => ?_
  refine (optionalLength_within h).bind fun _ h => ?_
  refine (expect_within .semicolon h).bind fun _ h => ?_
  obtain ⟨l, same, spelled⟩ := reads_param.mp read
  obtain ⟨inside, own⟩ := spelled.name_mem
  have inside : param.name ∈ all := suffix.subset (same ▸ List.mem_append_left rest inside)
  dsimp only
  unfold Frame.resolve
  cases frame.lookup? param.name.text with
  | some id => exact .ok ⟨h, rfl⟩
  | none => exact .error (.mk (.unknownIdentifier inside own))

theorem loopHead_within (h : Token.Ahead all us us' (depth + 1) ts ts')
    : ReadWithin all us us' (depth + 1) (loopHead frame ts) (loopHead frame ts') := by
  refine (expect_within .openParen h).bind fun _ h => ?_
  refine (optionalExpr_within rfl h).bind fun _ h => ?_
  refine (optionalExpr_within rfl h).bind fun _ h => ?_
  exact (optionalExpr_within rfl h).bind fun _ h => .ok ⟨h, rfl⟩

mutual

/-- A statement closes the blocks that it opens. -/
theorem stmt_within {depth : Nat} {ts ts' : List Token}
    (h : Token.Ahead all us us' (depth + 1) ts ts')
    : ReadWithin all us us' (depth + 1) (stmt frame ts) (stmt frame ts') := by
  match ts, ts', h with
  | ⟨kind, text, value, pos⟩ :: ts, _ :: ts', .cons within h =>
      unfold stmt
      cases kind with
      | returnWord => exact (closedExpr_within h).bind fun _ h => .ok ⟨h, rfl⟩
      | forWord =>
          refine (loopHead_within h).bind fun _ h => ?_
          exact (stmt_within h).bind fun _ h => .ok ⟨h, rfl⟩
      | whileWord =>
          refine (condition_within h).bind fun _ h => ?_
          exact (stmt_within h).bind fun _ h => .ok ⟨h, rfl⟩
      | ifWord =>
          refine (condition_within h).bind fun _ h => (stmt_within h).bind fun _ h => ?_
          exact (alternative_within h).bind fun _ h => .ok ⟨h, rfl⟩
      | openBrace => exact (items_within h).bind fun _ h => .ok ⟨h, rfl⟩
      | type scalar => exact (declaration_within (.cons within h)).bind fun _ h => .ok ⟨h, rfl⟩
      | _ => exact (closedExpr_within (.cons within h)).bind fun _ h => .ok ⟨h, rfl⟩
termination_by 2 * ts.length
decreasing_by all_goals simp only [List.length_cons] at *; omega

theorem alternative_within {depth : Nat} {ts ts' : List Token}
    (h : Token.Ahead all us us' (depth + 1) ts ts')
    : ReadWithin all us us' (depth + 1) (alternative frame ts) (alternative frame ts') := by
  match ts, ts', h with
  | t :: ts, _ :: ts', .cons within h =>
      rw [alternative, alternative]
      refine .ite (fun own => ?_) fun _ => .ok ⟨.cons within h, rfl⟩
      exact (stmt_within (h.next own)).bind fun _ h => .ok ⟨h, rfl⟩
termination_by 2 * ts.length + 1
decreasing_by all_goals simp only [List.length_cons] at *; omega

/-- The statements of a block are read with the brace that closes it. -/
theorem items_within {depth : Nat} {ts ts' : List Token}
    (h : Token.Ahead all us us' (depth + 1) ts ts')
    : ReadWithin all us us' depth (items frame ts) (items frame ts') := by
  match ts, ts', h with
  | t :: ts, _ :: ts', .cons within h =>
      rw [items, items]
      refine .ite (fun own => .ok ⟨h.next own, rfl⟩) fun _ => ?_
      refine (stmt_within (.cons within h)).bind fun _ h => ?_
      exact (items_within h).bind fun _ h => .ok ⟨h, rfl⟩
termination_by 2 * ts.length + 1
decreasing_by all_goals simp only [List.length_cons] at *; omega

end

/-- A block is read up to the brace that closes it, whatever comes after it. -/
theorem block_within {t : Token} (own : t.kind = .openBrace)
    (h : Token.Ahead all us us' 1 ts ts')
    : ReadWithin all us us' 0 (block frame (t :: ts)) (block frame (t :: ts')) := by
  have opened (ts : List Token) : expect .openBrace (t :: ts) = .ok ⟨t, ts, fewer_tail t ts⟩ := by
    simp [expect, own]
  unfold block
  rw [opened, opened]
  exact (items_within h).bind fun _ h => .ok ⟨h, rfl⟩

/-- A window is an opening brace and the tokens that close its block. -/
theorem braceWindow_parts {window : List Token} (found : braceWindow ts = .ok window)
    : ∃ t w after, window = t :: w ∧ ts = t :: (w ++ after) ∧ t.kind = .openBrace
        ∧ Token.Closing 1 w := by
  obtain ⟨⟨after, rfl⟩, enclosed⟩ := braceWindow_eq_ok.mp found
  cases window with
  | nil => cases enclosed.starts
  | cons t w =>
      obtain ⟨own, closing⟩ := Token.enclosed_cons.mp enclosed
      exact ⟨t, w, after, rfl, rfl, own, closing⟩

/-- A block is read or rejected by its window alone. -/
theorem block_local {window : List Token} (found : braceWindow ts = .ok window)
    (within : ts <:+ all) (frame : Frame) (us : List Token)
    : ∃ after, ts = window ++ after
        ∧ ((∃ body, Reads (block frame ts) body after ∧ Reads (block frame (window ++ us)) body us)
          ∨ ∃ error, error.Blames all ∧ block frame ts = .error (.rejected error)
              ∧ block frame (window ++ us) = .error (.rejected error)) := by
  obtain ⟨t, w, after, rfl, rfl, own, closing⟩ := braceWindow_parts found
  have inner : w ++ after <:+ all := (List.suffix_cons _ _).trans within
  have agree : ReadWithin all after us 0 (block frame (t :: (w ++ after)))
      (block frame (t :: (w ++ us))) :=
    block_within own (closing.ahead inner)
  refine ⟨after, rfl, ?_⟩
  rcases agree.ok_or_error with
    ⟨p, p', read, read', ahead, same⟩ | ⟨_, _, failed, failed', blamed⟩
  · obtain ⟨body, rest, fewer⟩ := p
    obtain ⟨body', rest', fewer'⟩ := p'
    dsimp only at ahead same
    obtain ⟨rfl, rfl⟩ := ahead.eq_of_done
    cases same
    exact .inl ⟨body, ⟨fewer, read⟩, ⟨fewer', read'⟩⟩
  · obtain ⟨blames⟩ := blamed
    exact .inr ⟨_, blames, failed, failed'⟩

end Grammar

/-- The window of a body is the shortest part of the tokens with as many closing braces as opening
ones, which a count of open braces finds without ever falling below zero. A block that is read
ends where the window does. If none is read, that is not for want of tokens, and the tokens after
the window do not matter.
-/
theorem block_readsWindow (ts : List Token) (frame : Frame)
    : Grammar.tallyWindow ts = some (Grammar.braceWindow ts)
      ∧ ∀ window, Grammar.braceWindow ts = .ok window →
          (window <+: ts ∧ Token.Enclosed window
            ∧ ∀ part, part <+: ts → Token.Enclosed part → part = window)
          ∧ (∀ body rest, Reads (Grammar.block frame ts) body rest → ts = window ++ rest)
          ∧ ∀ failure, Grammar.block frame ts = .error failure →
              ∃ error, failure = .rejected error ∧ error.cause ≠ .unexpectedEnd
                ∧ ∀ us, Grammar.block frame (window ++ us) = .error failure := by
  refine ⟨Grammar.tallyWindow_eq ts, fun window found => ⟨?_, ?_, ?_⟩⟩
  · obtain ⟨start, enclosed⟩ := Grammar.braceWindow_eq_ok.mp found
    refine ⟨start, enclosed, fun part start' enclosed' => ?_⟩
    have found' := Grammar.braceWindow_eq_ok.mpr ⟨start', enclosed'⟩
    exact Except.ok.inj (found'.symm.trans found)
  · intro body rest read
    obtain ⟨after, same, here | there⟩ := Grammar.block_local found List.suffix_rfl frame []
    · obtain ⟨_, read', -⟩ := here
      obtain ⟨-, rfl⟩ := read.unique read'
      exact same
    · obtain ⟨_, -, failed, -⟩ := there
      rw [failed] at read
      exact absurd read not_reads_error
  · intro failure failed
    have everywhere (us : List Token)
        : ∃ error, failure = .rejected error ∧ error.cause ≠ .unexpectedEnd
            ∧ Grammar.block frame (window ++ us) = .error failure := by
      obtain ⟨_, -, here | there⟩ := Grammar.block_local found List.suffix_rfl frame us
      · obtain ⟨_, read, -⟩ := here
        rw [failed] at read
        exact absurd read not_reads_error
      · obtain ⟨error, blames, failed', elsewhere⟩ := there
        obtain rfl := Except.error.inj (failed.symm.trans failed')
        exact ⟨error, rfl, blames.cause_ne, elsewhere⟩
    obtain ⟨error, same, cause, -⟩ := everywhere []
    refine ⟨error, same, cause, fun us => ?_⟩
    obtain ⟨_, -, -, failed'⟩ := everywhere us
    exact failed'

namespace Surplus

/-- A block in a block, and a brace too many. -/
def tokens : List Token :=
  [⟨.openBrace, "\x7b", 0, 0⟩, ⟨.openBrace, "\x7b", 0, 2⟩, ⟨.identifier, "a", 0, 4⟩,
    ⟨.semicolon, ";", 0, 5⟩, ⟨.closeBrace, "\x7d", 0, 7⟩, ⟨.closeBrace, "\x7d", 0, 9⟩,
    ⟨.closeBrace, "\x7d", 0, 11⟩]

/-- A frame with the variable. -/
def frame : Frame :=
  ⟨[⟨"a", .int, 8, 0, 0, none⟩], 8⟩

end Surplus

/-- The brace too many is left. Where the variable is unknown, it does not matter what follows. -/
theorem block_readsWindow_surplus
    : Grammar.braceWindow Surplus.tokens = .ok (Surplus.tokens.take 6)
      ∧ (∃ body rest, Reads (Grammar.block Surplus.frame Surplus.tokens) body rest
          ∧ Surplus.tokens = Surplus.tokens.take 6 ++ rest)
      ∧ ∀ us, Grammar.block .empty (Surplus.tokens.take 6 ++ us)
          = .error (.rejected ⟨.unknownIdentifier "a", 4⟩) := by
  have found : Grammar.braceWindow Surplus.tokens = .ok (Surplus.tokens.take 6) := rfl
  have read : Reads (Grammar.block Surplus.frame Surplus.tokens) [.block [.expr (.var 0)]]
      (Surplus.tokens.drop 6) :=
    ⟨by decide, by with_unfolding_all rfl⟩
  have failed : Grammar.block .empty Surplus.tokens
      = .error (.rejected ⟨.unknownIdentifier "a", 4⟩) := by
    with_unfolding_all rfl
  obtain ⟨-, ends, -⟩ := (block_readsWindow Surplus.tokens Surplus.frame).2 _ found
  obtain ⟨-, -, fails⟩ := (block_readsWindow Surplus.tokens .empty).2 _ found
  obtain ⟨_, -, -, everywhere⟩ := fails _ failed
  exact ⟨found, ⟨_, _, read, ends _ _ read⟩, everywhere⟩

end SlotC
