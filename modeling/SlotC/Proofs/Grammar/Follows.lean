import Mathlib.Data.Option.Basic
import SlotC.Proofs.Grammar.Cursor
import SlotC.Proofs.Grammar.Reading

/-! Readers with a cursor beside the readers of the grammar. A walk follows a reader if it comes to
the same value or error, with the cursor at the tokens that the reader leaves. This is carried from
step to step by one rule for `bind`, and shown here for single tokens and for lists with commas.
-/

namespace SlotC

/-- A walk has come to where the reader of the tokens ahead comes to: both have read the same and
the cursor is at the tokens that the reader leaves, or both have failed with the same error.
-/
inductive Follows (tokens : List Token) {α : Type} {bound : Nat}
    (run : Option (Except SyntaxError (α × Nat))) (x : Reading α bound) : Prop where
  | reads {a : α} {next : Nat} (within : next ≤ tokens.length) (ended : run = some (.ok (a, next)))
      (reads : Reads x a (tokens.drop next))
  | fails {failure : Failure} (failed : x = .error failure)
      (ended : run = some (.error (failure.locate (Token.endOf tokens))))

section

variable {tokens : List Token} {α β γ : Type} {bound bound' pos next : Nat} {a : α}
variable {m : Walk α} {k : α → Walk β}

-----------------------------------------------------------------------------------------
-- Outcomes
-----------------------------------------------------------------------------------------

theorem Walk.outcome_bind_ok (first : m.outcome pos = some (.ok (a, next)))
    : (m >>= k).outcome pos = (k a).outcome next := by
  unfold Walk.outcome at *
  simp only [bind, StateT.bind, ExceptT.bind, ExceptT.mk]
  rw [first]
  rfl

theorem Walk.outcome_bind_error {e : SyntaxError} (first : m.outcome pos = some (.error e))
    : (m >>= k).outcome pos = some (.error e) := by
  unfold Walk.outcome at *
  simp only [bind, StateT.bind, ExceptT.bind, ExceptT.mk]
  rw [first]
  rfl

/-- What comes after a walk that does not end is not reached. -/
theorem Walk.outcome_of_bind {outcome : Except SyntaxError (β × Nat)}
    (ended : (m >>= k).outcome pos = some outcome)
    : ∃ first, m.outcome pos = some first := by
  cases first : m.outcome pos with
  | some outcome => exact ⟨outcome, rfl⟩
  | none =>
      unfold Walk.outcome at *
      simp only [bind, StateT.bind, ExceptT.bind, ExceptT.mk] at ended
      rw [first] at ended
      cases ended

theorem Walk.outcome_bind_congr {m' : Walk α} (same : m.outcome pos = m'.outcome pos)
    : (m >>= k).outcome pos = (m' >>= k).outcome pos := by
  unfold Walk.outcome at *
  simp only [bind, StateT.bind, ExceptT.bind, ExceptT.mk]
  rw [same]

/-- A reader that leaves fewer tokens has moved the cursor. -/
theorem Cursor.lt_of_fewer {ts : List Token} (ahead : tokens.drop pos = ts)
    (fewer : (tokens.drop next).length < ts.length)
    : pos < next := by
  rw [← ahead, List.length_drop, List.length_drop] at fewer
  omega

namespace Follows

/-- A step of the walk that the reader takes no part in. -/
theorem step {x : Reading β bound} (first : m.outcome pos = some (.ok (a, next)))
    (rest : Follows tokens ((k a).outcome next) x)
    : Follows tokens ((m >>= k).outcome pos) x := by
  rw [Walk.outcome_bind_ok first]
  exact rest

theorem done {fewer : (tokens.drop next).length < bound} (within : next ≤ tokens.length)
    : Follows tokens ((pure a : Walk α).outcome next)
        (pure ⟨a, tokens.drop next, fewer⟩ : Reading α bound) :=
  .reads within rfl ⟨fewer, rfl⟩

/-- The walk leaves the cursor where it is, and the reader leaves all that is ahead. -/
theorem stay {ts : List Token} {fewer : ts.length < bound} (within : pos ≤ tokens.length)
    (ahead : tokens.drop pos = ts)
    : Follows tokens ((pure a : Walk α).outcome pos) (.ok ⟨a, ts, fewer⟩ : Reading α bound) := by
  subst ahead
  exact .done within

/-- The same result under another bound. -/
theorem reread {x : Reading α bound} {run : Option (Except SyntaxError (α × Nat))}
    {fewer : ∀ p : Parsed α bound, p.rest.length < bound'} (h : Follows tokens run x)
    : Follows tokens run (do let p ← x; return ⟨p.value, p.rest, fewer p⟩ : Reading α bound') := by
  cases h with
  | reads within ended reads =>
      obtain ⟨_, rfl⟩ := reads
      exact .reads within ended ⟨_, rfl⟩
  | fails failed ended =>
      cases failed
      exact .fails rfl ended

/-- One walk after another, as one reader after another. -/
theorem bindAny {x : Reading α bound} {k' : Parsed α bound → Reading β bound'}
    (first : Follows tokens (m.outcome pos) x)
    (rest : ∀ {a next} (fewer : (tokens.drop next).length < bound), next ≤ tokens.length →
      Follows tokens ((k a).outcome next) (k' ⟨a, tokens.drop next, fewer⟩))
    : Follows tokens ((m >>= k).outcome pos) (x >>= k') := by
  cases first with
  | reads within ended reads =>
      obtain ⟨fewer, rfl⟩ := reads
      rw [Walk.outcome_bind_ok ended]
      exact rest fewer within
  | fails failed ended =>
      cases failed
      exact .fails rfl (Walk.outcome_bind_error ended)

/-- What comes after a walk that has failed is not reached. -/
theorem bindFails {failure : Failure}
    (first : Follows tokens (m.outcome pos) (.error failure : Reading α bound))
    : Follows tokens ((m >>= k).outcome pos) (.error failure : Reading β bound') := by
  cases first with
  | reads _ _ reads => exact absurd reads not_reads_error
  | fails failed ended =>
      cases failed
      exact .fails rfl (Walk.outcome_bind_error ended)

theorem bind {x : Reading α (tokens.drop pos).length}
    {k' : Parsed α (tokens.drop pos).length → Reading β bound'}
    (first : Follows tokens (m.outcome pos) x)
    (rest : ∀ {a next} {fewer : (tokens.drop next).length < (tokens.drop pos).length},
      pos < next → next ≤ tokens.length →
      Follows tokens ((k a).outcome next) (k' ⟨a, tokens.drop next, fewer⟩))
    : Follows tokens ((m >>= k).outcome pos) (x >>= k') :=
  first.bindAny fun fewer within => rest (Cursor.lt_of_fewer rfl fewer) within

/-- A reader that may read nothing does not move the cursor back. -/
theorem bindLax {x : Reading α ((tokens.drop pos).length + 1)}
    {k' : Parsed α ((tokens.drop pos).length + 1) → Reading β bound'}
    (first : Follows tokens (m.outcome pos) x) (inside : pos ≤ tokens.length)
    (rest : ∀ {a next} {fewer : (tokens.drop next).length < (tokens.drop pos).length + 1},
      pos ≤ next → next ≤ tokens.length →
      Follows tokens ((k a).outcome next) (k' ⟨a, tokens.drop next, fewer⟩))
    : Follows tokens ((m >>= k).outcome pos) (x >>= k') := by
  refine first.bindAny fun fewer within => rest ?_ within
  rw [List.length_drop, List.length_drop] at fewer
  omega

/-- A check that does not move the cursor. -/
theorem located {x : Except Failure γ} {k : γ → Walk β} {k' : γ → Reading β bound}
    (rest : ∀ c, Follows tokens ((k c).outcome pos) (k' c))
    : Follows tokens
        ((MonadExcept.ofExcept (x.mapError (Failure.locate (Token.endOf tokens)))
          >>= k).outcome pos)
        (x >>= k') := by
  cases x with
  | error failure => exact .fails rfl rfl
  | ok c => exact rest c

theorem checked {x : Except SyntaxError γ} {k : γ → Walk β} {k' : γ → Reading β bound}
    (rest : ∀ c, Follows tokens ((k c).outcome pos) (k' c))
    : Follows tokens ((MonadExcept.ofExcept x >>= k).outcome pos)
        (x.mapError Failure.rejected >>= k') := by
  cases x with
  | error e => exact .fails rfl rfl
  | ok c => exact rest c

theorem named {frame : Frame} {t : Token} {k : Nat → Walk β} {k' : Expr → Reading β bound}
    (rest : ∀ id, Follows tokens ((k id).outcome pos) (k' (.var id)))
    : Follows tokens ((Cursor.resolve frame t >>= k).outcome pos)
        (Grammar.named frame t >>= k') := by
  unfold Cursor.resolve Grammar.named
  cases frame.resolve t with
  | error e => exact .fails rfl rfl
  | ok id => exact rest id

/-- What a walk comes to is given by the reader that it follows. -/
theorem unique {x : Reading α bound} {run run' : Option (Except SyntaxError (α × Nat))}
    (first : Follows tokens run x) (second : Follows tokens run' x)
    : run = run' := by
  cases first with
  | @reads a next within ended reads =>
      cases second with
      | @reads a' next' within' ended' reads' =>
          obtain ⟨rfl, same⟩ := reads.unique reads'
          have lengths := congrArg List.length same
          rw [List.length_drop, List.length_drop] at lengths
          obtain rfl : next = next' := by omega
          exact ended.trans ended'.symm
      | fails failed _ =>
          subst failed
          exact absurd reads not_reads_error
  | fails failed ended =>
      subst failed
      cases second with
      | reads _ _ reads => exact absurd reads not_reads_error
      | fails failed' ended' =>
          cases failed'
          exact ended.trans ended'.symm

theorem ended {x : Reading α bound} {run : Option (Except SyntaxError (α × Nat))}
    (h : Follows tokens run x)
    : ∃ outcome, run = some outcome := by
  cases h with
  | reads _ ended _ => exact ⟨_, ended⟩
  | fails _ ended => exact ⟨_, ended⟩

end Follows

end

namespace Cursor

variable {tokens : List Token} {pos bound : Nat} {t : Token} {α β : Type}

-----------------------------------------------------------------------------------------
-- Single tokens
-----------------------------------------------------------------------------------------

/-- The cursor is at the end or at the first of the tokens ahead. -/
theorem drop_cases (within : pos ≤ tokens.length)
    : (tokens[pos]? = none ∧ tokens.drop pos = [])
      ∨ ∃ t, tokens[pos]? = some t ∧ tokens.drop pos = t :: tokens.drop (pos + 1)
          ∧ pos + 1 ≤ tokens.length := by
  rcases Nat.lt_or_eq_of_le within with inside | rfl
  · exact .inr ⟨tokens[pos], List.getElem?_eq_getElem inside, List.drop_eq_getElem_cons inside,
      inside⟩
  · exact .inl ⟨List.getElem?_eq_none (Nat.le_refl _), List.drop_length⟩

theorem outcome_peek? : (peek? tokens).outcome pos = some (.ok (tokens[pos]?, pos)) :=
  rfl

theorem outcome_get : (get : Walk Nat).outcome pos = some (.ok (pos, pos)) :=
  rfl

theorem outcome_bump : bump.outcome pos = some (.ok ((), pos + 1)) :=
  rfl

theorem outcome_place (found : tokens[pos]? = some t)
    : (place tokens).outcome pos = some (.ok (t.pos, pos)) := by
  unfold place
  rw [Walk.outcome_bind_ok outcome_peek?, found]
  rfl

theorem outcome_place_end (ended : tokens[pos]? = none)
    : (place tokens).outcome pos = some (.ok (Token.endOf tokens, pos)) := by
  unfold place
  rw [Walk.outcome_bind_ok outcome_peek?, ended]
  rfl

theorem outcome_peek (found : tokens[pos]? = some t)
    : (peek tokens).outcome pos = some (.ok (t, pos)) := by
  unfold peek
  rw [Walk.outcome_bind_ok outcome_peek?, found]
  rfl

theorem outcome_peek_end (ended : tokens[pos]? = none)
    : (peek tokens).outcome pos = some (.error ⟨.unexpectedEnd, Token.endOf tokens⟩) := by
  unfold peek
  rw [Walk.outcome_bind_ok outcome_peek?, ended]
  rfl

theorem outcome_next (found : tokens[pos]? = some t)
    : (next tokens).outcome pos = some (.ok (t, pos + 1)) := by
  unfold next
  rw [Walk.outcome_bind_ok (outcome_peek found)]
  rfl

theorem outcome_one {kind : Kind} {cause : Token → SyntaxError.Cause}
    (found : tokens[pos]? = some t)
    : (one tokens kind cause).outcome pos
      = some (if t.kind = kind then .ok (t, pos + 1) else .error ⟨cause t, t.pos⟩) := by
  unfold one
  rw [Walk.outcome_bind_ok (outcome_place found), Walk.outcome_bind_ok (outcome_next found)]
  split <;> rfl

theorem outcome_one_end {kind : Kind} {cause : Token → SyntaxError.Cause}
    (ended : tokens[pos]? = none)
    : (one tokens kind cause).outcome pos
      = some (.error ⟨.unexpectedEnd, Token.endOf tokens⟩) := by
  unfold one next
  rw [Walk.outcome_bind_ok (outcome_place_end ended)]
  exact Walk.outcome_bind_error (Walk.outcome_bind_error (outcome_peek_end ended))

theorem outcome_expect_own {kind : Kind} (found : tokens[pos]? = some t) (own : t.kind = kind)
    : (expect tokens kind).outcome pos = some (.ok (t, pos + 1)) := by
  unfold expect
  rw [outcome_one found, if_pos own]

theorem outcome_identifier_own (found : tokens[pos]? = some t) (own : t.kind = .identifier)
    : (identifier tokens).outcome pos = some (.ok (t, pos + 1)) := by
  unfold identifier
  rw [outcome_one found, if_pos own]

theorem outcome_atEnd
    : (atEnd tokens).outcome pos = some (.ok (decide (tokens.length ≤ pos), pos)) :=
  rfl

theorem outcome_peekIs {kind : Kind}
    : (peekIs tokens kind).outcome pos
      = some (.ok (tokens[pos]?.any fun t => t.kind = kind, pos)) :=
  rfl

theorem outcome_bumpIf_own {kind : Kind} (found : tokens[pos]? = some t) (own : t.kind = kind)
    : (bumpIf tokens kind).outcome pos = some (.ok (true, pos + 1)) := by
  unfold bumpIf
  rw [Walk.outcome_bind_ok outcome_peekIs, found]
  simp only [Option.any_some, own, decide_true, ↓reduceIte]
  rfl

theorem outcome_bumpIf_other {kind : Kind} (found : tokens[pos]? = some t) (other : t.kind ≠ kind)
    : (bumpIf tokens kind).outcome pos = some (.ok (false, pos)) := by
  unfold bumpIf
  rw [Walk.outcome_bind_ok outcome_peekIs, found]
  simp only [Option.any_some, other, decide_false, ↓reduceIte, Bool.false_eq_true]
  rfl

theorem outcome_bumpIf_end {kind : Kind} (ended : tokens[pos]? = none)
    : (bumpIf tokens kind).outcome pos = some (.ok (false, pos)) := by
  unfold bumpIf
  rw [Walk.outcome_bind_ok outcome_peekIs, ended]
  rfl

theorem one_follows (read : (ts : List Token) → Reading Token ts.length) (kind : Kind)
    (cause : Token → SyntaxError.Cause) (none : read [] = .error .ranOut)
    (some : ∀ t ts, read (t :: ts) = if t.kind = kind then .ok ⟨t, ts, fewer_tail t ts⟩
      else .error (.reject (cause t) t))
    (within : pos ≤ tokens.length)
    : Follows tokens ((one tokens kind cause).outcome pos) (read (tokens.drop pos)) := by
  rcases drop_cases within with ⟨ended, empty⟩ | ⟨t, found, ahead, inside⟩
  · rw [empty, none]
    exact .fails rfl (outcome_one_end ended)
  · rw [ahead, some, outcome_one found]
    split
    · exact .reads inside rfl ⟨_, rfl⟩
    · exact .fails rfl rfl

theorem expect_follows (kind : Kind) (within : pos ≤ tokens.length)
    : Follows tokens ((expect tokens kind).outcome pos)
        (Grammar.expect kind (tokens.drop pos)) :=
  one_follows (Grammar.expect kind) kind (.expected kind) rfl (fun _ _ => rfl) within

theorem identifier_follows (within : pos ≤ tokens.length)
    : Follows tokens ((identifier tokens).outcome pos)
        (Grammar.identifier (tokens.drop pos)) :=
  one_follows Grammar.identifier .identifier .expectedIdentifier rfl (fun _ _ => rfl) within

theorem number_follows (within : pos ≤ tokens.length)
    : Follows tokens ((number tokens).outcome pos) (Grammar.number (tokens.drop pos)) :=
  one_follows Grammar.number .constant .expectedNumber rfl (fun _ _ => rfl) within

theorem typeName_follows (within : pos ≤ tokens.length)
    : Follows tokens ((typeName tokens).outcome pos) (Grammar.typeName (tokens.drop pos)) := by
  unfold typeName
  rcases drop_cases within with ⟨ended, empty⟩ | ⟨t, found, ahead, inside⟩
  · rw [empty]
    refine .step (outcome_place_end ended) ?_
    unfold next
    exact .fails rfl (Walk.outcome_bind_error (Walk.outcome_bind_error (outcome_peek_end ended)))
  · rw [ahead]
    refine .step (outcome_place found) (.step (outcome_next found) ?_)
    obtain ⟨kind, text, value, place⟩ := t
    cases kind with
    | type scalar => exact .done inside
    | _ => exact .fails rfl rfl

-----------------------------------------------------------------------------------------
-- Lists in parentheses
-----------------------------------------------------------------------------------------

/-- Reads a list and the parenthesis after it. -/
def closing {α : Type} (tokens : List Token) (list : Walk (List α)) : Walk (List α) := do
  let elements ← list
  let _ ← expect tokens .closeParen
  return elements

/-- A list is read with the parenthesis after it. -/
theorem follows_closing {list : Walk (List α)} {k : List α → Walk β} {x : Reading β bound}
    (h : Follows tokens ((closing tokens list >>= k).outcome pos) x)
    : Follows tokens ((do
        let elements ← list
        let _ ← expect tokens .closeParen
        k elements : Walk β).outcome pos) x := by
  unfold closing at h
  simp only [bind_assoc, pure_bind] at h
  exact h

/-- What follows an element of a list: a comma and more of the list, or the parenthesis. -/
def more (tokens : List Token) (loop : Walk (List α)) : Walk (List α) := do
  if ← bumpIf tokens .comma then closing tokens loop
  else
    let _ ← expect tokens .closeParen
    return []

theorem closing_separated (one : Walk α) (loop : Walk (List α))
    : closing tokens (separated tokens one loop) = (do
        let first ← one
        let rest ← more tokens loop
        return first :: rest) := by
  unfold closing separated more closing
  simp only [bind_assoc]
  congr
  funext first
  congr
  funext met
  cases met <;> simp

theorem closing_unlessClosed (list : Walk (List α))
    : closing tokens (unlessClosed tokens list) = (do
        if ← peekIs tokens .closeParen then
          let _ ← expect tokens .closeParen
          return []
        else closing tokens list) := by
  unfold closing unlessClosed
  simp only [bind_assoc]
  congr
  funext met
  cases met <;> simp

theorem more_follows {loop : Walk (List α)}
    {list tail : (ts : List Token) → Reading (List α) ts.length}
    (tail_nil : tail [] = .error .ranOut)
    (tail_cons : ∀ t ts, tail (t :: ts) = if t.kind = .comma then do
        let more ← list ts
        return more.within (Nat.le_of_lt (fewer_tail t ts))
      else do
        let p ← Grammar.expect .closeParen (t :: ts)
        return ⟨[], p.rest, p.fewer⟩)
    (within : pos ≤ tokens.length)
    (later : ∀ {next}, pos < next → next ≤ tokens.length →
      Follows tokens ((closing tokens loop).outcome next) (list (tokens.drop next)))
    : Follows tokens ((more tokens loop).outcome pos) (tail (tokens.drop pos)) := by
  unfold more
  have closed := expect_follows .closeParen within
  rcases drop_cases within with ⟨ended, empty⟩ | ⟨t, found, ahead, inside⟩
  · rw [empty] at closed ⊢
    rw [tail_nil]
    exact .step (outcome_bumpIf_end ended) closed.bindFails
  · rw [ahead] at closed ⊢
    rw [tail_cons]
    split
    · next comma =>
        exact .step (outcome_bumpIf_own found comma) (later (Nat.lt_succ_self pos) inside).reread
    · next other =>
        refine .step (outcome_bumpIf_other found other) ?_
        exact closed.bindAny fun _ within => .done within

/-- The loop over a list with commas, whose next pass follows the reader of such a list. -/
theorem separated_follows {one : Walk α} {loop : Walk (List α)}
    {read : (ts : List Token) → Reading α ts.length}
    {list tail : (ts : List Token) → Reading (List α) ts.length}
    (list_eq : ∀ ts, list ts = do
      let p ← read ts
      let more ← tail p.rest
      return ⟨p.value :: more.value, more.rest, fewer_trans p.fewer more.fewer⟩)
    (first : Follows tokens (one.outcome pos) (read (tokens.drop pos)))
    (later : ∀ {next}, pos < next → next ≤ tokens.length →
      Follows tokens ((more tokens loop).outcome next) (tail (tokens.drop next)))
    : Follows tokens ((closing tokens (separated tokens one loop)).outcome pos)
        (list (tokens.drop pos)) := by
  rw [closing_separated, list_eq]
  refine first.bind fun further within => ?_
  exact (later further within).bind fun _ within => .done within

theorem unlessClosed_follows {loop : Walk (List α)}
    {list all : (ts : List Token) → Reading (List α) ts.length}
    (all_nil : all [] = .error .ranOut) (list_nil : list [] = .error .ranOut)
    (all_cons : ∀ t ts, all (t :: ts)
      = if t.kind = .closeParen then .ok ⟨[], ts, fewer_tail t ts⟩ else list (t :: ts))
    (within : pos ≤ tokens.length)
    (rest : Follows tokens ((closing tokens loop).outcome pos) (list (tokens.drop pos)))
    : Follows tokens ((closing tokens (unlessClosed tokens loop)).outcome pos)
        (all (tokens.drop pos)) := by
  rw [closing_unlessClosed]
  refine .step outcome_peekIs ?_
  rcases drop_cases within with ⟨ended, empty⟩ | ⟨t, found, ahead, inside⟩
  · rw [empty, list_nil] at rest
    rw [empty, all_nil, ended]
    exact rest
  · rw [ahead] at rest ⊢
    rw [all_cons, found]
    by_cases own : t.kind = .closeParen
    · simp only [Option.any_some, own, decide_true, ↓reduceIte]
      exact .step (outcome_expect_own found own) (.done inside)
    · simp only [Option.any_some, own, decide_false, ↓reduceIte, Bool.false_eq_true]
      exact rest

/-- Two loops over lists come to the same if the reader that their elements follow is the same and
their next passes come to the same.
-/
theorem outcome_separated_congr {one one' : Walk α} {loop loop' : Walk (List α)}
    {x : Reading α (tokens.drop pos).length}
    (first : Follows tokens (one.outcome pos) x) (first' : Follows tokens (one'.outcome pos) x)
    (later : ∀ {next}, pos < next → next ≤ tokens.length → loop.outcome next = loop'.outcome next)
    : (separated tokens one loop).outcome pos = (separated tokens one' loop').outcome pos := by
  unfold separated
  have same := first.unique first'
  cases first with
  | fails _ ended =>
      rw [Walk.outcome_bind_error ended, Walk.outcome_bind_error (same.symm.trans ended)]
  | reads within ended reads =>
      have further := lt_of_fewer rfl reads.fewer
      rw [Walk.outcome_bind_ok ended, Walk.outcome_bind_ok (same.symm.trans ended)]
      rcases drop_cases within with ⟨ended, _⟩ | ⟨t, found, _, inside⟩
      · simp only [Walk.outcome_bind_ok (outcome_bumpIf_end ended)]
        rfl
      · by_cases comma : t.kind = .comma
        · simp only [Walk.outcome_bind_ok (outcome_bumpIf_own found comma), ↓reduceIte]
          exact Walk.outcome_bind_congr (later (Nat.lt_succ_of_lt further) inside)
        · simp only [Walk.outcome_bind_ok (outcome_bumpIf_other found comma)]
          rfl

theorem outcome_unlessClosed_congr {list list' : Walk (List α)}
    (same : list.outcome pos = list'.outcome pos)
    : (unlessClosed tokens list).outcome pos = (unlessClosed tokens list').outcome pos := by
  unfold unlessClosed
  rw [Walk.outcome_bind_ok outcome_peekIs, Walk.outcome_bind_ok outcome_peekIs]
  split
  · rfl
  · exact same

end Cursor

end SlotC
