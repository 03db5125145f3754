import SlotC.Proofs.Frame.Renaming
import SlotC.Proofs.Grammar.Scan

/-! Tokens at other places and with other names for variables. Readers look at kinds, at values
and at which names are equal, so they read the same from like tokens, and where they reject a
token they reject the like one for a like cause.
-/

namespace SlotC

-----------------------------------------------------------------------------------------
-- Like tokens
-----------------------------------------------------------------------------------------

/-- The text of a token under other names for variables. A name directly before a parenthesis is
that of a function.
-/
def Token.retold (r : String → String) (t : Token) (after : List Token) : String :=
  if t.kind = .identifier ∧ after.head?.map Token.kind ≠ some .openParen then r t.text else t.text

theorem Token.retold_variable {r : String → String} {t : Token} {after : List Token}
    (name : t.kind = .identifier) (plain : after.head?.map Token.kind ≠ some .openParen)
    : t.retold r after = r t.text :=
  if_pos ⟨name, plain⟩

theorem Token.retold_function {r : String → String} {t : Token} {after : List Token}
    (opened : after.head?.map Token.kind = some .openParen)
    : t.retold r after = t.text :=
  if_neg fun ⟨_, plain⟩ => plain opened

theorem Token.retold_other {r : String → String} {t : Token} {after : List Token}
    (other : t.kind ≠ .identifier)
    : t.retold r after = t.text :=
  if_neg fun ⟨name, _⟩ => other name

theorem Token.retold_id (t : Token) (after : List Token) : t.retold id after = t.text :=
  ite_self t.text

/-- The second tokens are the first ones at places that `P` relates to theirs, with the names of
variables changed by `r`.
-/
inductive Token.Alike (P : Nat → Nat → Prop) (r : String → String)
    : List Token → List Token → Prop where
  | nil : Alike P r [] []
  | cons {t : Token} {pos' : Nat} {ts ts' : List Token} (place : P t.pos pos')
      (rest : Alike P r ts ts')
      : Alike P r (t :: ts) (⟨t.kind, t.retold r ts, t.value, pos'⟩ :: ts')

/-- The second token may stand in the place of the first. -/
structure Token.Like (P : Nat → Nat → Prop) (r : String → String) (t t' : Token) : Prop where
  kind : t'.kind = t.kind
  text : t'.text = t.text ∨ t'.text = r t.text
  value : t'.value = t.value
  place : P t.pos t'.pos

/-- The causes are about like tokens or names. -/
inductive SyntaxError.Cause.Alike (P : Nat → Nat → Prop) (r : String → String)
    : SyntaxError.Cause → SyntaxError.Cause → Prop where
  | expected {kind : Kind} {t t' : Token} (like : t.Like P r t')
      : Alike P r (.expected kind t) (.expected kind t')
  | expectedIdentifier {t t' : Token} (like : t.Like P r t')
      : Alike P r (.expectedIdentifier t) (.expectedIdentifier t')
  | expectedNumber {t t' : Token} (like : t.Like P r t')
      : Alike P r (.expectedNumber t) (.expectedNumber t')
  | expectedType {t t' : Token} (like : t.Like P r t')
      : Alike P r (.expectedType t) (.expectedType t')
  | badFactor {t t' : Token} (like : t.Like P r t') : Alike P r (.badFactor t) (.badFactor t')
  | unknownIdentifier {name : String}
      : Alike P r (.unknownIdentifier name) (.unknownIdentifier (r name))
  | duplicateIdentifier {name : String}
      : Alike P r (.duplicateIdentifier name) (.duplicateIdentifier (r name))
  | invalidArrayLength {length : Int64}
      : Alike P r (.invalidArrayLength length) (.invalidArrayLength length)
  | invalidSizeofOperand : Alike P r .invalidSizeofOperand .invalidSizeofOperand
  | tooManyParameters {function : String}
      : Alike P r (.tooManyParameters function) (.tooManyParameters function)

/-- The errors have like causes, at like places. -/
structure SyntaxError.Alike (P : Nat → Nat → Prop) (r : String → String)
    (error error' : SyntaxError) : Prop where
  cause : error.cause.Alike P r error'.cause
  place : P error.pos error'.pos

/-- Both readers ran out of tokens, or they rejected like ones. -/
inductive Failure.Alike (P : Nat → Nat → Prop) (r : String → String)
    : Failure → Failure → Prop where
  | ranOut : Alike P r .ranOut .ranOut
  | rejected {error error' : SyntaxError} (alike : error.Alike P r error')
      : Alike P r (.rejected error) (.rejected error')

/-- Both answers are results, or both are errors, that are related. -/
inductive Agree {ε α β : Type} (E : ε → ε → Prop) (R : α → β → Prop)
    : Except ε α → Except ε β → Prop where
  | ok {a : α} {b : β} (results : R a b) : Agree E R (.ok a) (.ok b)
  | error {e e' : ε} (errors : E e e') : Agree E R (.error e) (.error e')

theorem Agree.bind {ε α β α' β' : Type} {E : ε → ε → Prop} {R : α → β → Prop}
    {S : α' → β' → Prop} {x : Except ε α} {y : Except ε β} {k : α → Except ε α'}
    {k' : β → Except ε β'} (first : Agree E R x y)
    (next : ∀ {a b}, R a b → Agree E S (k a) (k' b))
    : Agree E S (x >>= k) (y >>= k') := by
  cases first with
  | ok results => exact next results
  | error errors => exact .error errors

/-- Related answers are both results or both errors. -/
theorem Agree.ok_or_error {ε α β : Type} {E : ε → ε → Prop} {R : α → β → Prop} {x : Except ε α}
    {y : Except ε β} (h : Agree E R x y)
    : (∃ a b, x = .ok a ∧ y = .ok b ∧ R a b)
      ∨ ∃ e e', x = .error e ∧ y = .error e' ∧ E e e' := by
  cases h with
  | ok results => exact .inl ⟨_, _, rfl, rfl, results⟩
  | error errors => exact .inr ⟨_, _, rfl, rfl, errors⟩

theorem Agree.imp {ε α β : Type} {E : ε → ε → Prop} {R S : α → β → Prop} {x : Except ε α}
    {y : Except ε β} (h : Agree E R x y) (results : ∀ {a b}, R a b → S a b)
    : Agree E S x y := by
  cases h with
  | ok related => exact .ok (results related)
  | error errors => exact .error errors

/-- A choice that does not depend on what may differ. -/
theorem Agree.ite {ε α β : Type} {E : ε → ε → Prop} {R : α → β → Prop} {c : Prop} [Decidable c]
    {x x' : Except ε α} {y y' : Except ε β} (yes : c → Agree E R x y) (no : ¬c → Agree E R x' y')
    : Agree E R (if c then x else x') (if c then y else y') := by
  split
  · next holds => exact yes holds
  · next fails => exact no fails

theorem Agree.mapError {ε ε' α β : Type} {E : ε → ε → Prop} {E' : ε' → ε' → Prop}
    {R : α → β → Prop} {x : Except ε α} {y : Except ε β} {f f' : ε → ε'} (h : Agree E R x y)
    (errors : ∀ {e e'}, E e e' → E' (f e) (f' e'))
    : Agree E' R (x.mapError f) (y.mapError f') := by
  cases h with
  | ok results => exact .ok results
  | error alike => exact .error (errors alike)

section

variable {P : Nat → Nat → Prop} {r : String → String} {α β γ : Type} {bound bound' : Nat}

/-- Like values are read and like tokens are left, or the readers fail alike. -/
abbrev ReadAlike (P : Nat → Nat → Prop) (r : String → String) (V : List Token → α → α → Prop)
    (x : Reading α bound) (y : Reading α bound') : Prop :=
  Agree (Failure.Alike P r)
    (fun p p' => Token.Alike P r p.rest p'.rest ∧ V p.rest p.value p'.value) x y

/-- The same value is read and like tokens are left, or the readers fail alike. -/
abbrev ReadSame (P : Nat → Nat → Prop) (r : String → String) (x : Reading α bound)
    (y : Reading α bound') : Prop :=
  ReadAlike P r (fun _ a a' => a' = a) x y

theorem ReadAlike.bind {V : List Token → α → α → Prop} {R : β → γ → Prop} {x : Reading α bound}
    {y : Reading α bound'} {k : Parsed α bound → Except Failure β}
    {k' : Parsed α bound' → Except Failure γ} (first : ReadAlike P r V x y)
    (next : ∀ {a a' rest rest' fewer fewer'}, V rest a a' → Token.Alike P r rest rest' →
      Agree (Failure.Alike P r) R (k ⟨a, rest, fewer⟩) (k' ⟨a', rest', fewer'⟩))
    : Agree (Failure.Alike P r) R (x >>= k) (y >>= k') :=
  Agree.bind first fun ⟨rests, values⟩ => next values rests

theorem ReadSame.bind {R : β → γ → Prop} {x : Reading α bound} {y : Reading α bound'}
    {k : Parsed α bound → Except Failure β} {k' : Parsed α bound' → Except Failure γ}
    (first : ReadSame P r x y)
    (next : ∀ {a rest rest' fewer fewer'}, Token.Alike P r rest rest' →
      Agree (Failure.Alike P r) R (k ⟨a, rest, fewer⟩) (k' ⟨a, rest', fewer'⟩))
    : Agree (Failure.Alike P r) R (x >>= k) (y >>= k') := by
  refine ReadAlike.bind first fun same rests => ?_
  subst same
  exact next rests

/-- The first of like tokens are like. -/
theorem Token.like_retold {t : Token} {after : List Token} {pos' : Nat} (place : P t.pos pos')
    : t.Like P r ⟨t.kind, t.retold r after, t.value, pos'⟩ := by
  refine ⟨rfl, ?_, rfl, place⟩
  show t.retold r after = t.text ∨ t.retold r after = r t.text
  unfold retold
  split
  · exact .inr rfl
  · exact .inl rfl

/-- The text of a token depends on the one after it, which is the same in a part of the tokens.
-/
theorem Token.Alike.cons_of_eq {t : Token} {pos' : Nat} {ts window window' : List Token}
    (alike : Token.Alike P r window window') (place : P t.pos pos')
    (same : t.retold r ts = t.retold r window)
    : Token.Alike P r (t :: window) (⟨t.kind, t.retold r ts, t.value, pos'⟩ :: window') := by
  rw [same]
  exact .cons place alike

theorem Failure.Alike.reject {t t' : Token} {cause cause' : SyntaxError.Cause}
    (causes : cause.Alike P r cause') (place : P t.pos t'.pos)
    : Alike P r (.reject cause t) (.reject cause' t') :=
  .rejected ⟨causes, place⟩

/-- Stars are found alike. -/
theorem Token.Alike.skipStars {ts ts' : List Token} (h : Token.Alike P r ts ts')
    : Token.Alike P r (Declarator.skipStars ts) (Declarator.skipStars ts')
      ∧ Declarator.countStars ts' = Declarator.countStars ts := by
  unfold Declarator.skipStars Declarator.countStars
  induction h with
  | nil => exact ⟨.nil, rfl⟩
  | @cons t pos' ts ts' place rest ih =>
      by_cases star : t.kind = .star
      · simpa [List.dropWhile_cons, List.takeWhile_cons, star] using ih
      · simpa [List.dropWhile_cons, List.takeWhile_cons, star] using rest.cons place

end

namespace Grammar

variable {P : Nat → Nat → Prop} {r : String ↪ String} {frame : Frame} {ts ts' : List Token}

-----------------------------------------------------------------------------------------
-- Single tokens
-----------------------------------------------------------------------------------------

/-- A token of the kind was read from `ts`, in front of `rest`. -/
structure Picked (P : Nat → Nat → Prop) (r : String → String) (kind : Kind)
    (ts rest : List Token) (t t' : Token) : Prop where
  head : ts.head?.map Token.kind = some kind
  kind : t.kind = kind
  text : t'.text = t.retold r rest
  place : P t.pos t'.pos

/-- What reads one token of a kind reads the like one. -/
theorem one_alike (read : (ts : List Token) → Reading Token ts.length) (kind : Kind)
    (cause : Token → SyntaxError.Cause)
    (named : ∀ {t t' : Token}, t.Like P r t' → (cause t).Alike P r (cause t'))
    (none : read [] = .error .ranOut)
    (some : ∀ t ts, read (t :: ts) = if t.kind = kind then .ok ⟨t, ts, fewer_tail t ts⟩
      else .error (.reject (cause t) t))
    (h : Token.Alike P r ts ts')
    : ReadAlike P r (Picked P r kind ts) (read ts) (read ts') := by
  cases h with
  | nil =>
      rw [none]
      exact .error .ranOut
  | @cons t pos' ts ts' place rest =>
      rw [some, some]
      refine .ite (fun own => ?_) fun _ => ?_
      · exact .ok ⟨rest, congrArg Option.some own, own, rfl, place⟩
      · exact .error (.reject (named (Token.like_retold place)) place)

theorem expect_alike (kind : Kind) (h : Token.Alike P r ts ts')
    : ReadAlike P r (Picked P r kind ts) (expect kind ts) (expect kind ts') :=
  one_alike (expect kind) kind (.expected kind) .expected rfl (fun _ _ => rfl) h

theorem identifier_alike (h : Token.Alike P r ts ts')
    : ReadAlike P r (Picked P r .identifier ts) (identifier ts) (identifier ts') :=
  one_alike identifier .identifier .expectedIdentifier .expectedIdentifier rfl (fun _ _ => rfl) h

theorem number_alike (h : Token.Alike P r ts ts')
    : ReadAlike P r (Picked P r .constant ts) (number ts) (number ts') :=
  one_alike number .constant .expectedNumber .expectedNumber rfl (fun _ _ => rfl) h

theorem typeName_same (h : Token.Alike P r ts ts')
    : ReadSame P r (typeName ts) (typeName ts') := by
  cases h with
  | nil => exact .error .ranOut
  | @cons t pos' ts ts' place rest =>
      obtain ⟨kind, text, value, pos⟩ := t
      cases kind with
      | type scalar => exact .ok ⟨rest, rfl⟩
      | _ => exact .error (.reject (.expectedType (Token.like_retold place)) place)

/-- The parameters were read from like tokens, in front of `rest`. -/
structure PickedParam (P : Nat → Nat → Prop) (r : String → String) (rest : List Token)
    (param param' : Param) : Prop where
  scalar : param'.scalar = param.scalar
  pointers : param'.pointers = param.pointers
  kind : param.name.kind = .identifier
  text : param'.name.text = param.name.retold r rest
  place : P param.name.pos param'.name.pos

theorem typedName_alike (h : Token.Alike P r ts ts')
    : ReadAlike P r (PickedParam P r) (typedName ts) (typedName ts') := by
  refine (typeName_same h).bind fun h => ?_
  obtain ⟨afterStars, stars⟩ := h.skipStars
  refine (identifier_alike afterStars).bind fun picked h => ?_
  exact .ok ⟨h, rfl, stars, picked.kind, picked.text, picked.place⟩

-----------------------------------------------------------------------------------------
-- Expressions
-----------------------------------------------------------------------------------------

theorem resolve_alike {t t' : Token} (text : t'.text = r t.text) (place : P t.pos t'.pos)
    : Agree (SyntaxError.Alike P r) Eq (frame.resolve t) ((frame.rename r).resolve t') := by
  unfold Frame.resolve
  rw [text, Frame.lookup?_rename]
  cases frame.lookup? t.text with
  | some id => exact .ok rfl
  | none => exact .error ⟨.unknownIdentifier, place⟩

theorem named_alike {t t' : Token} (text : t'.text = r t.text) (place : P t.pos t'.pos)
    : Agree (Failure.Alike P r) Eq (named frame t) (named (frame.rename r) t') := by
  unfold named Frame.resolve
  rw [text, Frame.lookup?_rename]
  cases frame.lookup? t.text with
  | some id => exact .ok rfl
  | none => exact .error (.reject .unknownIdentifier place)

theorem sizeOf?_rename (e : Expr) : sizeOf? (frame.rename r) e = sizeOf? frame e := by
  cases e with
  | var id =>
      rw [sizeOf?, Frame.get?_rename, Option.map_map]
      rfl
  | _ => rfl

mutual

/-- Like tokens are read as the same expression. -/
theorem expr_same (least : Nat) {ts ts' : List Token} (h : Token.Alike P r ts ts')
    : ReadSame P r (expr frame least ts) (expr (frame.rename r) least ts') := by
  rw [expr, expr]
  refine (unary_same h).bind fun h => ?_
  exact (climb_same least _ h).bind fun h => .ok ⟨h, rfl⟩
termination_by 4 * ts.length + 2
decreasing_by all_goals omega

theorem climb_same (least : Nat) (left : Expr) {ts ts' : List Token} (h : Token.Alike P r ts ts')
    : ReadSame P r (climb frame least left ts) (climb (frame.rename r) least left ts') := by
  match ts, ts', h with
  | _, _, .nil =>
      rw [climb, climb]
      exact .ok ⟨.nil, rfl⟩
  | t :: ts, _ :: ts', .cons place h =>
      rw [climb, climb]
      cases t.kind.operator? with
      | none => exact .ok ⟨.cons place h, rfl⟩
      | some operator =>
          refine .ite (fun _ => .ok ⟨.cons place h, rfl⟩) fun _ => ?_
          refine (expr_same _ h).bind fun h => ?_
          exact (climb_same least _ h).bind fun h => .ok ⟨h, rfl⟩
termination_by 4 * ts.length
decreasing_by all_goals simp only [List.length_cons] at *; omega

theorem unary_same {ts ts' : List Token} (h : Token.Alike P r ts ts')
    : ReadSame P r (unary frame ts) (unary (frame.rename r) ts') := by
  match ts, ts', h with
  | _, _, .nil =>
      rw [unary, unary]
      exact .error .ranOut
  | ⟨kind, text, value, pos⟩ :: ts, _ :: ts', .cons place h =>
      have plain : ReadSame P r (primary frame _) _ := primary_same (.cons place h)
      unfold unary
      cases kind with
      | plus => exact (unary_same h).bind fun h => .ok ⟨h, rfl⟩
      | minus | ampersand | star => exact (unary_same h).bind fun h => .ok ⟨h, rfl⟩
      | sizeofWord =>
          match ts, ts', h with
          | _, _, .nil => exact .error .ranOut
          | first :: ts, _ :: ts', .cons place' h =>
              refine (unary_same (.cons place' h)).bind fun h => ?_
              dsimp only
              rw [sizeOf?_rename]
              split
              · exact .ok ⟨h, rfl⟩
              · exact .error (.reject .invalidSizeofOperand place')
      | _ => exact plain
termination_by 4 * ts.length + 1
decreasing_by all_goals simp only [List.length_cons] at *; omega

theorem primary_same {ts ts' : List Token} (h : Token.Alike P r ts ts')
    : ReadSame P r (primary frame ts) (primary (frame.rename r) ts') := by
  match ts, ts', h with
  | _, _, .nil =>
      rw [primary, primary]
      exact .error .ranOut
  | ⟨kind, text, value, pos⟩ :: ts, _ :: ts', .cons place h =>
      unfold primary
      cases kind with
      | identifier =>
          match ts, ts', h with
          | _, _, .nil =>
              refine (named_alike rfl place).bind fun same => ?_
              exact .ok ⟨.nil, same.symm⟩
          | ⟨kind', text', value', pos'⟩ :: ts, _ :: ts', .cons place' h =>
              cases kind' with
              | openParen =>
                  refine (arguments_same h).bind fun h => .ok ⟨h, ?_⟩
                  rw [Token.retold_function rfl]
              | openBracket =>
                  refine (named_alike rfl place).bind fun same => ?_
                  subst same
                  refine (expr_same 0 h).bind fun h => ?_
                  exact (expect_alike .closeBracket h).bind fun _ h => .ok ⟨h, rfl⟩
              | _ =>
                  refine (named_alike rfl place).bind fun same => ?_
                  exact .ok ⟨.cons place' h, same.symm⟩
      | openParen =>
          refine (expr_same 0 h).bind fun h => ?_
          exact (expect_alike .closeParen h).bind fun _ h => .ok ⟨h, rfl⟩
      | constant => exact .ok ⟨h, rfl⟩
      | _ => exact .error (.reject (.badFactor (Token.like_retold place)) place)
termination_by 4 * ts.length
decreasing_by all_goals simp only [List.length_cons] at *; omega

theorem arguments_same {ts ts' : List Token} (h : Token.Alike P r ts ts')
    : ReadSame P r (arguments frame ts) (arguments (frame.rename r) ts') := by
  match ts, ts', h with
  | _, _, .nil =>
      rw [arguments, arguments]
      exact .error .ranOut
  | t :: ts, _ :: ts', .cons place h =>
      rw [arguments, arguments]
      exact .ite (fun _ => .ok ⟨h, rfl⟩) fun _ => argumentList_same (.cons place h)
termination_by 4 * ts.length + 4
decreasing_by all_goals simp only [List.length_cons] at *; omega

theorem argumentList_same {ts ts' : List Token} (h : Token.Alike P r ts ts')
    : ReadSame P r (argumentList frame ts) (argumentList (frame.rename r) ts') := by
  rw [argumentList, argumentList]
  refine (expr_same 0 h).bind fun h => ?_
  exact (argumentTail_same h).bind fun h => .ok ⟨h, rfl⟩
termination_by 4 * ts.length + 3
decreasing_by all_goals omega

theorem argumentTail_same {ts ts' : List Token} (h : Token.Alike P r ts ts')
    : ReadSame P r (argumentTail frame ts) (argumentTail (frame.rename r) ts') := by
  match ts, ts', h with
  | _, _, .nil =>
      rw [argumentTail, argumentTail]
      exact .error .ranOut
  | t :: ts, _ :: ts', .cons place h =>
      rw [argumentTail, argumentTail]
      refine .ite (fun _ => (argumentList_same h).bind fun h => .ok ⟨h, rfl⟩) fun _ => ?_
      exact (expect_alike .closeParen (.cons place h)).bind fun _ h => .ok ⟨h, rfl⟩
termination_by 4 * ts.length
decreasing_by all_goals simp only [List.length_cons] at *; omega

end

-----------------------------------------------------------------------------------------
-- Statements
-----------------------------------------------------------------------------------------

theorem condition_same (h : Token.Alike P r ts ts')
    : ReadSame P r (condition frame ts) (condition (frame.rename r) ts') := by
  refine (expect_alike .openParen h).bind fun _ h => ?_
  refine (expr_same 0 h).bind fun h => ?_
  exact (expect_alike .closeParen h).bind fun _ h => .ok ⟨h, rfl⟩

theorem optionalExpr_same (close : Kind) (h : Token.Alike P r ts ts')
    : ReadSame P r (optionalExpr frame close ts) (optionalExpr (frame.rename r) close ts') := by
  cases h with
  | nil => exact .error .ranOut
  | cons place h =>
      refine .ite (fun _ => .ok ⟨h, rfl⟩) fun _ => (expr_same 0 (.cons place h)).bind fun h => ?_
      exact (expect_alike close h).bind fun _ h => .ok ⟨h, rfl⟩

theorem closedExpr_same (h : Token.Alike P r ts ts')
    : ReadSame P r (closedExpr frame ts) (closedExpr (frame.rename r) ts') := by
  refine (expr_same 0 h).bind fun h => ?_
  exact (expect_alike .semicolon h).bind fun _ h => .ok ⟨h, rfl⟩

/-- A length that is read stands in brackets. -/
theorem optionalLength_alike (h : Token.Alike P r ts ts')
    : ReadAlike P r
        (fun rest _ _ => ts.head?.map Token.kind = some .openBracket
          ∨ rest.head?.map Token.kind = ts.head?.map Token.kind)
        (optionalLength ts) (optionalLength ts') := by
  cases h with
  | nil => exact .ok ⟨.nil, .inr rfl⟩
  | @cons t pos' ts ts' place h =>
      refine .ite (fun bracket => ?_) fun _ => .ok ⟨.cons place h, .inr rfl⟩
      refine (number_alike h).bind fun _ h => ?_
      exact (expect_alike .closeBracket h).bind fun _ h => .ok ⟨h, .inl (congrArg some bracket)⟩

theorem declaration_same (h : Token.Alike P r ts ts')
    : ReadSame P r (declaration frame ts) (declaration (frame.rename r) ts') := by
  refine (typedName_alike h).bind fun {param param' rest rest' _ _} picked h => ?_
  refine (optionalLength_alike h).bind fun after h => ?_
  refine (expect_alike .semicolon h).bind fun closed h => ?_
  -- Brackets or a semicolon follow the name, so it is that of a variable.
  have plain : rest.head?.map Token.kind ≠ some .openParen := by
    rcases after with bracket | same
    · simp [bracket]
    · simp [← same, closed.head]
  have text := picked.text.trans (Token.retold_variable picked.kind plain)
  have resolved : Agree (SyntaxError.Alike P r) Eq (frame.resolve param.name) _ :=
    resolve_alike text picked.place
  refine Agree.bind (resolved.mapError .rejected) fun same => ?_
  exact .ok ⟨h, same.symm⟩

theorem loopHead_same (h : Token.Alike P r ts ts')
    : ReadSame P r (loopHead frame ts) (loopHead (frame.rename r) ts') := by
  refine (expect_alike .openParen h).bind fun _ h => ?_
  refine (optionalExpr_same .semicolon h).bind fun h => ?_
  refine (optionalExpr_same .semicolon h).bind fun h => ?_
  exact (optionalExpr_same .closeParen h).bind fun h => .ok ⟨h, rfl⟩

mutual

/-- Like tokens are read as the same statement. -/
theorem stmt_same {ts ts' : List Token} (h : Token.Alike P r ts ts')
    : ReadSame P r (stmt frame ts) (stmt (frame.rename r) ts') := by
  match ts, ts', h with
  | _, _, .nil =>
      rw [stmt, stmt]
      exact .error .ranOut
  | ⟨kind, text, value, pos⟩ :: ts, _ :: ts', .cons place h =>
      unfold stmt
      cases kind with
      | returnWord => exact (closedExpr_same h).bind fun h => .ok ⟨h, rfl⟩
      | forWord =>
          refine (loopHead_same h).bind fun h => ?_
          exact (stmt_same h).bind fun h => .ok ⟨h, rfl⟩
      | whileWord =>
          refine (condition_same h).bind fun h => ?_
          exact (stmt_same h).bind fun h => .ok ⟨h, rfl⟩
      | ifWord =>
          refine (condition_same h).bind fun h => (stmt_same h).bind fun h => ?_
          exact (alternative_same h).bind fun h => .ok ⟨h, rfl⟩
      | openBrace => exact (items_same h).bind fun h => .ok ⟨h, rfl⟩
      | type scalar => exact (declaration_same (.cons place h)).bind fun h => .ok ⟨h, rfl⟩
      | _ => exact (closedExpr_same (.cons place h)).bind fun h => .ok ⟨h, rfl⟩
termination_by 2 * ts.length
decreasing_by all_goals simp only [List.length_cons] at *; omega

theorem alternative_same {ts ts' : List Token} (h : Token.Alike P r ts ts')
    : ReadSame P r (alternative frame ts) (alternative (frame.rename r) ts') := by
  match ts, ts', h with
  | _, _, .nil =>
      rw [alternative, alternative]
      exact .ok ⟨.nil, rfl⟩
  | t :: ts, _ :: ts', .cons place h =>
      rw [alternative, alternative]
      refine .ite (fun _ => ?_) fun _ => .ok ⟨.cons place h, rfl⟩
      exact (stmt_same h).bind fun h => .ok ⟨h, rfl⟩
termination_by 2 * ts.length + 1
decreasing_by all_goals simp only [List.length_cons] at *; omega

theorem items_same {ts ts' : List Token} (h : Token.Alike P r ts ts')
    : ReadSame P r (items frame ts) (items (frame.rename r) ts') := by
  match ts, ts', h with
  | _, _, .nil =>
      rw [items, items]
      exact .error .ranOut
  | t :: ts, _ :: ts', .cons place h =>
      rw [items, items]
      refine .ite (fun _ => .ok ⟨h, rfl⟩) fun _ => (stmt_same (.cons place h)).bind fun h => ?_
      exact (items_same h).bind fun h => .ok ⟨h, rfl⟩
termination_by 2 * ts.length + 1
decreasing_by all_goals simp only [List.length_cons] at *; omega

end

theorem block_same (h : Token.Alike P r ts ts')
    : ReadSame P r (block frame ts) (block (frame.rename r) ts') := by
  refine (expect_alike .openBrace h).bind fun _ h => ?_
  exact (items_same h).bind fun h => .ok ⟨h, rfl⟩

end Grammar

end SlotC
