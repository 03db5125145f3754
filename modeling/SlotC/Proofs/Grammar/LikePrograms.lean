import SlotC.Proofs.Grammar.Likeness

/-! Programs of like tokens. Like tokens declare the same variables under other names, so they
are read as the same functions with other names for the variables. Where they are does not
matter at all.
-/

namespace SlotC

/-- The parameters differ in name and place only. -/
structure Param.Alike (P : Nat → Nat → Prop) (r : String → String) (param param' : Param)
    : Prop where
  scalar : param'.scalar = param.scalar
  pointers : param'.pointers = param.pointers
  text : param'.name.text = r param.name.text
  place : P param.name.pos param'.name.pos

/-- The declarators differ in name and place only. -/
structure Declarator.Alike (P : Nat → Nat → Prop) (r : String → String) (d d' : Declarator)
    : Prop where
  pointers : d'.pointers = d.pointers
  text : d'.name.text = r d.name.text
  place : P d.name.pos d'.name.pos
  length : Option.Rel (fun t t' => t'.value = t.value ∧ P t.pos t'.pos) d.length d'.length

section

variable {P : Nat → Nat → Prop} {r : String ↪ String} {frame : Frame} {ts ts' : List Token}

-----------------------------------------------------------------------------------------
-- Frames
-----------------------------------------------------------------------------------------

/-- The frames of like declarations. -/
theorem Declarator.Alike.declare {d d' : Declarator} (h : d.Alike P r d') (scalar : Scalar)
    (argIndex : Option Nat)
    : Agree (SyntaxError.Alike P r) (fun frame frame' => frame' = frame.rename r)
        (frame.declare scalar d argIndex) ((frame.rename r).declare scalar d' argIndex) := by
  obtain ⟨name, pointers, length⟩ := d
  obtain ⟨name', pointers', length'⟩ := d'
  obtain ⟨rfl, text, place, lengths⟩ := h
  have arrayLength : Declarator.arrayLength ⟨name', pointers', length'⟩
      = Declarator.arrayLength ⟨name, pointers', length⟩ := by
    cases lengths with
    | none => rfl
    | some like =>
        show Int.toNat _ = Int.toNat _
        rw [like.1]
  have tooLarge : SyntaxError.Alike P r (Declarator.tooLarge ⟨name, pointers', length⟩)
      (Declarator.tooLarge ⟨name', pointers', length'⟩) := by
    cases lengths with
    | none => exact ⟨.invalidArrayLength, place⟩
    | some like =>
        refine ⟨?_, like.2⟩
        show SyntaxError.Cause.Alike P r (.invalidArrayLength _) (.invalidArrayLength _)
        rw [like.1]
        exact .invalidArrayLength
  unfold Frame.declare Declarator.bytes
  rw [text, Frame.lookup?_rename, arrayLength]
  refine .ite (fun _ => .error ⟨.duplicateIdentifier, place⟩) fun _ => ?_
  refine .ite (fun _ => .ok ?_) fun _ => .error tooLarge
  simp [Frame.rename, Variable.rename]

theorem Frame.declareParams_alike {params params' : List Param} (index : Nat)
    (h : List.Forall₂ (Param.Alike P r) params params')
    : Agree (SyntaxError.Alike P r) (fun frame frame' => frame' = frame.rename r)
        (frame.declareParams index params) ((frame.rename r).declareParams index params') := by
  induction h generalizing frame index with
  | nil => exact .ok rfl
  | @cons param param' params params' like _ ih =>
      have declarators : Declarator.Alike P r ⟨param.name, param.pointers, none⟩
          ⟨param'.name, param'.pointers, none⟩ :=
        ⟨like.pointers, like.text, like.place, .none⟩
      rw [Frame.declareParams, Frame.declareParams, like.scalar]
      refine (declarators.declare param.scalar (some index)).bind fun same => ?_
      subst same
      exact ih (index + 1)

theorem Declarator.checkLength_alike {t t' : Token} (like : t.Like P r t')
    : Agree (Failure.Alike P r) Eq (checkLength t) (checkLength t') := by
  unfold checkLength
  rw [like.kind, like.value]
  refine .ite (fun _ => .error (.reject (.expectedNumber like) like.place)) fun _ => ?_
  exact .ite (fun _ => .error (.reject .invalidArrayLength like.place)) fun _ => .ok rfl

/-- Like tokens are seen as like declarators. -/
theorem Declarator.ofTokens_alike (h : Token.Alike P r ts ts')
    : Agree (Failure.Alike P r) (Option.Rel (Declarator.Alike P r)) (ofTokens ts)
        (ofTokens ts') := by
  obtain ⟨afterStars, stars⟩ := h.skipStars
  unfold ofTokens
  rw [stars]
  generalize skipStars ts = us at afterStars ⊢
  generalize skipStars ts' = us' at afterStars ⊢
  cases afterStars with
  | nil => exact .error .ranOut
  | @cons name pos' rest rest' place h =>
      refine .ite (fun _ => ?_) fun identifier => ?_
      · exact .error (.reject (.expectedIdentifier (Token.like_retold place)) place)
      have own : name.kind = .identifier := not_not.mp identifier
      cases h with
      | nil =>
          exact .ok (.some ⟨rfl, Token.retold_variable own (by simp), place, .none⟩)
      | @cons next pos'' rest rest' place' h =>
          obtain ⟨kind, text, value, pos⟩ := next
          cases kind with
          | openParen => exact .ok .none
          | openBracket =>
              cases h with
              | nil => exact .error .ranOut
              | @cons length pos'' rest rest' place'' h =>
                  refine (checkLength_alike (Token.like_retold place'')).bind fun _ => ?_
                  cases h with
                  | nil => exact .error .ranOut
                  | cons closed h =>
                      refine .ite (fun _ => ?_) fun _ => ?_
                      · exact .error (.reject (.expected (Token.like_retold closed)) closed)
                      · exact .ok (.some ⟨rfl, Token.retold_variable own (by simp), place,
                          .some ⟨rfl, place''⟩⟩)
          | _ => exact .ok (.some ⟨rfl, Token.retold_variable own (by simp), place, .none⟩)

/-- Like tokens declare the same variables under other names. -/
theorem Frame.declareLocals_alike (h : Token.Alike P r ts ts')
    : Agree (Failure.Alike P r) (fun frame frame' => frame' = frame.rename r)
        (frame.declareLocals ts) ((frame.rename r).declareLocals ts') := by
  induction h generalizing frame with
  | nil => exact .ok rfl
  | @cons t pos' ts ts' place h ih =>
      obtain ⟨kind, text, value, pos⟩ := t
      cases kind with
      | type scalar =>
          refine (Declarator.ofTokens_alike h).bind fun found => ?_
          cases found with
          | none => exact ih
          | some like =>
              refine ((like.declare scalar none).mapError .rejected).bind fun same => ?_
              subst same
              exact ih
      | _ => exact ih

/-- The stars before a last token that is none are not all of the tokens. -/
theorem Declarator.getLast?_skipStars {ts : List Token} {last : Token}
    (ends : ts.getLast? = some last) (noStar : last.kind ≠ .star)
    : (skipStars ts).getLast? = some last := by
  have parts : ts.takeWhile (fun t => t.kind = .star) ++ skipStars ts = ts :=
    List.takeWhile_append_dropWhile
  cases rest : skipStars ts with
  | nil =>
      rw [rest, List.append_nil] at parts
      have member := List.mem_of_getLast? (parts ▸ ends)
      have star := List.all_eq_true.mp List.all_takeWhile last member
      exact absurd (of_decide_eq_true star) noStar
  | cons t ts' =>
      rw [← parts, rest, List.getLast?_append_of_ne_nil _ (List.cons_ne_nil t ts')] at ends
      exact ends

/-- No length of an array is missing before a closing brace. -/
theorem Declarator.checkLength_bind_ne_ranOut {length : Token} {rest : List Token} {last : Token}
    {d : Declarator} (ends : (length :: rest).getLast? = some last)
    (closing : last.kind = .closeBrace)
    : (do
        checkLength length
        match rest with
        | [] => .error .ranOut
        | close :: _ =>
          if close.kind ≠ .closeBracket then .error (.reject (.expected .closeBracket close) close)
          else .ok (some d) : Except Failure (Option Declarator)) ≠ .error .ranOut := by
  cases checked : checkLength length with
  | error failure =>
      unfold checkLength at checked
      split at checked
      · cases checked
        intro same
        cases same
      · split at checked
        · cases checked
          intro same
          cases same
        · cases checked
  | ok =>
      cases rest with
      | nil =>
          obtain rfl : length = last := by simpa using ends
          simp [checkLength, closing] at checked
      | cons close after =>
          show (if close.kind ≠ .closeBracket then _ else _) ≠ _
          split
          · intro same
            cases same
          · intro same
            cases same

/-- Tokens up to a closing brace are enough to see a declarator. -/
theorem Declarator.ofTokens_ne_ranOut {ts : List Token} {last : Token}
    (ends : ts.getLast? = some last) (closing : last.kind = .closeBrace)
    : ofTokens ts ≠ .error .ranOut := by
  have ends := getLast?_skipStars ends (by rw [closing]; decide)
  unfold ofTokens
  cases list : skipStars ts with
  | nil =>
      rw [list] at ends
      cases ends
  | cons name rest =>
      rw [list] at ends
      dsimp only
      split
      · intro same
        cases same
      cases rest with
      | nil =>
          intro same
          cases same
      | cons next rest =>
          obtain ⟨kind, text, value, pos⟩ := next
          cases kind with
          | openBracket =>
              cases rest with
              | nil =>
                  cases ends
                  cases closing
              | cons length rest => exact checkLength_bind_ne_ranOut ends closing
          | _ =>
              intro same
              cases same

/-- Nor do tokens up to a closing brace leave a declaration open. -/
theorem Frame.declareLocals_ne_ranOut {ts : List Token} {last : Token}
    (ends : ts.getLast? = some last) (closing : last.kind = .closeBrace)
    : frame.declareLocals ts ≠ .error .ranOut := by
  induction ts generalizing frame with
  | nil => cases ends
  | cons t ts ih =>
      cases ts with
      | nil =>
          obtain rfl : t = last := by simpa using ends
          simp [declareLocals, closing]
      | cons t' ts =>
          rw [List.getLast?_cons_cons] at ends
          obtain ⟨kind, text, value, pos⟩ := t
          cases kind with
          | type scalar =>
              show (Declarator.ofTokens (t' :: ts) >>= _) ≠ _
              cases found : Declarator.ofTokens (t' :: ts) with
              | error failure =>
                  intro same
                  cases same
                  exact Declarator.ofTokens_ne_ranOut ends closing found
              | ok d =>
                  cases d with
                  | none => exact ih ends
                  | some d =>
                      show ((frame.declare scalar d none).mapError Failure.rejected >>= _) ≠ _
                      cases frame.declare scalar d none with
                      | error error =>
                          intro same
                          cases same
                      | ok frame => exact ih ends
          | _ => exact ih ends

/-- The frame of a function does not depend on places, and on names only for its own. -/
theorem Frame.ofBody_alike {name name' : Token} {params params' : List Param}
    {body body' : List Token} {last : Token} (text : name'.text = name.text)
    (place : P name.pos name'.pos) (like : List.Forall₂ (Param.Alike P r) params params')
    (h : Token.Alike P r body body') (ends : body.getLast? = some last)
    (closing : last.kind = .closeBrace)
    : Agree (SyntaxError.Alike P r) (fun frame frame' => frame' = frame.rename r)
        (Frame.ofBody name params body) (Frame.ofBody name' params' body') := by
  unfold Frame.ofBody
  rw [← like.length_eq, text]
  refine .ite (fun _ => .error ⟨.tooManyParameters, place⟩) fun _ => ?_
  have first : Agree _ _ (empty.declareParams 0 params) _ := declareParams_alike 0 like
  refine first.bind fun {frame frame'} same => ?_
  subst same
  have scanned : Agree _ _ (frame.declareLocals body) _ := declareLocals_alike h
  rcases scanned.ok_or_error with ⟨_, _, found, found', same⟩ | ⟨_, _, failed, failed', alike⟩
  · rw [found, found']
    exact .ok same
  · rw [failed, failed']
    cases alike with
    | ranOut => exact absurd failed (declareLocals_ne_ranOut ends closing)
    | rejected alike => exact .error alike

end

namespace Grammar

variable {P : Nat → Nat → Prop} {r : String ↪ String} {frame : Frame} {ts ts' : List Token}

-----------------------------------------------------------------------------------------
-- Functions
-----------------------------------------------------------------------------------------

/-- The search for the closing brace ends at a token or goes on after it, as its kind says. -/
theorem untilClosed_cases (inner : Nat) (kind : Kind)
    : kind = .closeBrace ∧ inner = 0
      ∨ ∃ inner', ∀ (t : Token) (ts : List Token), t.kind = kind →
          untilClosed inner (t :: ts) = (untilClosed inner' ts).map (t :: ·) := by
  cases kind with
  | openBrace => exact .inr ⟨inner + 1, fun t ts own => by rw [untilClosed.eq_def]; simp [own]⟩
  | closeBrace =>
      cases inner with
      | zero => exact .inl ⟨rfl, rfl⟩
      | succ inner => exact .inr ⟨inner, fun t ts own => by rw [untilClosed.eq_def]; simp [own]⟩
  | _ => exact .inr ⟨inner, fun t ts own => by rw [untilClosed.eq_def]; simp [own]⟩

/-- What the search for the closing brace finds ends in it. -/
theorem untilClosed_ends {inner : Nat} {ts window : List Token}
    (found : untilClosed inner ts = some window)
    : ∃ last, window.getLast? = some last ∧ last.kind = .closeBrace := by
  induction ts generalizing inner window with
  | nil => cases found
  | cons t ts ih =>
      rcases untilClosed_cases inner t.kind with ⟨own, rfl⟩ | ⟨inner', goesOn⟩
      · rw [untilClosed_last own] at found
        cases found
        exact ⟨t, rfl, own⟩
      · rw [goesOn t ts rfl, Option.map_eq_some_iff] at found
        obtain ⟨window, found, rfl⟩ := found
        obtain ⟨last, ends, closing⟩ := ih found
        exact ⟨last, by simp [List.getLast?_cons, ends], closing⟩

/-- The search for the closing brace keeps the first token. -/
theorem untilClosed_head {inner : Nat} {ts window : List Token}
    (found : untilClosed inner ts = some window)
    : window.head? = ts.head? := by
  cases ts with
  | nil => cases found
  | cons t ts =>
      rcases untilClosed_cases inner t.kind with ⟨own, rfl⟩ | ⟨inner', goesOn⟩
      · rw [untilClosed_last own] at found
        cases found
        rfl
      · rw [goesOn t ts rfl, Option.map_eq_some_iff] at found
        obtain ⟨window, found, rfl⟩ := found
        rfl

theorem untilClosed_alike (inner : Nat) (h : Token.Alike P r ts ts')
    : Option.Rel (Token.Alike P r) (untilClosed inner ts) (untilClosed inner ts') := by
  induction h generalizing inner with
  | nil => exact .none
  | @cons t pos' ts ts' place h ih =>
      rcases untilClosed_cases inner t.kind with ⟨own, rfl⟩ | ⟨inner', goesOn⟩
      · have other : t.kind ≠ .identifier := by simp [own]
        rw [untilClosed_last own,
          untilClosed_last (t := ⟨t.kind, t.retold r ts, t.value, pos'⟩) own]
        refine .some (Token.Alike.nil.cons_of_eq place ?_)
        rw [Token.retold_other other, Token.retold_other other]
      · rw [goesOn t ts rfl, goesOn ⟨t.kind, t.retold r ts, t.value, pos'⟩ ts' rfl]
        have found : Option.Rel _ _ _ := ih inner'
        generalize search : untilClosed inner' ts = window at found ⊢
        generalize untilClosed inner' ts' = window' at found ⊢
        cases found with
        | none => exact .none
        | some alike =>
            refine .some (alike.cons_of_eq place ?_)
            unfold Token.retold
            rw [untilClosed_head search]

/-- The bodies of like functions are alike and end in a brace. -/
theorem braceWindow_alike (h : Token.Alike P r ts ts')
    : Agree (Failure.Alike P r)
        (fun window window' => Token.Alike P r window window'
          ∧ ∃ last, window.getLast? = some last ∧ last.kind = .closeBrace)
        (braceWindow ts) (braceWindow ts') := by
  cases h with
  | nil => exact .error .ranOut
  | @cons t pos' ts ts' place h =>
      refine .ite (fun own => ?_) fun _ => ?_
      · have found : Option.Rel _ _ _ := untilClosed_alike 0 h
        generalize search : untilClosed 0 ts = window at found ⊢
        generalize untilClosed 0 ts' = window' at found ⊢
        cases found with
        | none => exact .error .ranOut
        | some alike =>
            obtain ⟨last, ends, closing⟩ := untilClosed_ends search
            have other : t.kind ≠ .identifier := by simp [own]
            refine .ok ⟨alike.cons_of_eq place ?_, last, ?_, closing⟩
            · rw [Token.retold_other other, Token.retold_other other]
            · simp [List.getLast?_cons, ends]
      · exact .error (.reject (.expected (Token.like_retold place)) place)

mutual

theorem paramList_alike {ts ts' : List Token} (h : Token.Alike P r ts ts')
    : ReadAlike P r (fun _ => List.Forall₂ (Param.Alike P r)) (paramList ts) (paramList ts') := by
  rw [paramList, paramList]
  refine (typedName_alike h).bind fun picked h => ?_
  refine (paramTail_alike h).bind fun ⟨more, plain⟩ h => .ok ⟨h, .cons ?_ more⟩
  have text := picked.text.trans (Token.retold_variable picked.kind plain)
  exact ⟨picked.scalar, picked.pointers, text, picked.place⟩
termination_by ts.length
decreasing_by all_goals omega

/-- No parenthesis opens after a parameter. -/
theorem paramTail_alike {ts ts' : List Token} (h : Token.Alike P r ts ts')
    : ReadAlike P r
        (fun _ params params' => List.Forall₂ (Param.Alike P r) params params'
          ∧ ts.head?.map Token.kind ≠ some .openParen)
        (paramTail ts) (paramTail ts') := by
  match ts, ts', h with
  | _, _, .nil =>
      rw [paramTail]
      exact .error .ranOut
  | t :: ts, _ :: ts', .cons place h =>
      rw [paramTail, paramTail]
      refine .ite (fun comma => ?_) fun _ => ?_
      · exact (paramList_alike h).bind fun more h => .ok ⟨h, more, by simp [comma]⟩
      · exact (expect_alike .closeParen (.cons place h)).bind fun closed h =>
          .ok ⟨h, .nil, fun opened => nomatch closed.head.symm.trans opened⟩
termination_by ts.length
decreasing_by all_goals simp only [List.length_cons] at *; omega

end

theorem params_alike (h : Token.Alike P r ts ts')
    : ReadAlike P r (fun _ => List.Forall₂ (Param.Alike P r)) (params ts) (params ts') := by
  cases h with
  | nil => exact .error .ranOut
  | cons place h => exact .ite (fun _ => .ok ⟨h, .nil⟩) fun _ => paramList_alike (.cons place h)

/-- Like tokens are read as the same function with other names for its variables. -/
theorem function_alike (h : Token.Alike P r ts ts')
    : ReadAlike P r (fun _ f f' => f' = f.rename r) (function ts) (function ts') := by
  refine (typedName_alike h).bind fun picked h => ?_
  refine (expect_alike .openParen h).bind fun opened h => ?_
  refine (params_alike h).bind fun like h => ?_
  refine (braceWindow_alike h).bind fun ⟨window, last, ends, closing⟩ => ?_
  -- The parenthesis after the name makes it that of a function.
  have name := picked.text.trans (Token.retold_function opened.head)
  have frames := Frame.ofBody_alike name picked.place like window ends closing
  refine (frames.mapError .rejected).bind fun same => ?_
  subst same
  refine (block_same h).bind fun h => .ok ⟨h, ?_⟩
  rw [name, ← like.length_eq]
  rfl

/-- Like tokens are read as the same functions with other names for their variables. -/
theorem functions_alike {ts ts' : List Token} (h : Token.Alike P r ts ts')
    : Agree (Failure.Alike P r) (fun fs fs' => fs' = fs.map (Function.rename r)) (functions ts)
        (functions ts') := by
  match ts, ts', h with
  | _, _, .nil =>
      rw [functions]
      exact .ok rfl
  | t :: ts, _ :: ts', .cons place h =>
      rw [functions, functions]
      refine (function_alike (.cons place h)).bind fun first h => ?_
      refine (functions_alike h).bind fun more => .ok ?_
      rw [first, more]
      rfl
termination_by ts.length
decreasing_by simp only [List.length_cons] at *; omega

/-- Tokens that differ in their places only are read as the same functions. -/
theorem functions_same (h : Token.Alike P id ts ts')
    : Agree (Failure.Alike P id) Eq (functions ts) (functions ts') := by
  have alike := functions_alike (r := .refl String) h
  exact alike.imp fun same => (same.trans (Function.map_rename_id _)).symm

end Grammar

-----------------------------------------------------------------------------------------
-- Tokens at other places
-----------------------------------------------------------------------------------------

/-- The token at another place. -/
def Token.move (p : Nat → Nat) (t : Token) : Token :=
  { t with pos := p t.pos }

theorem Token.alike_move (p : Nat → Nat) (ts : List Token)
    : Token.Alike (fun pos pos' => pos' = p pos) id ts (ts.map (Token.move p)) := by
  induction ts with
  | nil => exact .nil
  | cons t ts ih =>
      have same : t.move p = ⟨t.kind, t.retold id ts, t.value, p t.pos⟩ := by
        rw [Token.retold_id]
        rfl
      rw [List.map_cons, same]
      exact .cons rfl ih

/-- Moved tokens are read as the same functions. -/
theorem Grammar.functions_moved {p : Nat → Nat} {ts : List Token} {fs : List Function}
    (read : functions ts = .ok fs)
    : functions (ts.map (Token.move p)) = .ok fs := by
  rcases (functions_same (Token.alike_move p ts)).ok_or_error with
    ⟨_, _, first, moved, same⟩ | ⟨_, _, failed, -⟩
  · cases read.symm.trans first
    rw [moved, same]
  · cases read.symm.trans failed

end SlotC
