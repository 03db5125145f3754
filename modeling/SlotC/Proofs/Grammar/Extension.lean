import SlotC.Proofs.Grammar.Acceptance
import SlotC.Proofs.Grammar.Locality

/-! Tokens that are followed by more tokens. What a reader has read or rejected stays as it is,
and only where it ran out of tokens does it go on. So a program is read one function after the
other, and an error is the same whatever follows it, unless it is that the tokens end.
-/

namespace SlotC

/-- The second answer is that of the first reader where it is given more tokens. An error other
than the end of the tokens stays, and one of all tokens is to blame for it.
-/
inductive Extends {α β : Type} (all : List Token) (R : α → β → Prop)
    : Except Failure α → Except Failure β → Prop where
  | ok {a : α} {b : β} (results : R a b) : Extends all R (.ok a) (.ok b)
  | rejected {error : SyntaxError} (blames : error.Blames all)
      : Extends all R (.error (.rejected error)) (.error (.rejected error))
  | ranOut {y : Except Failure β} : Extends all R (.error .ranOut) y

section

variable {all us : List Token} {α β α' β' : Type} {bound bound' : Nat}

theorem Extends.bind {R : α → β → Prop} {S : α' → β' → Prop} {x : Except Failure α}
    {y : Except Failure β} {k : α → Except Failure α'} {k' : β → Except Failure β'}
    (first : Extends all R x y)
    (next : ∀ {a b}, x = .ok a → R a b → Extends all S (k a) (k' b))
    : Extends all S (x >>= k) (y >>= k') := by
  cases first with
  | ok results => exact next rfl results
  | rejected blames => exact .rejected blames
  | ranOut => exact .ranOut

/-- The same value is read with the tokens `us` behind those that are left, which are the end of
`all`.
-/
abbrev ReadOn (all us : List Token) (x : Reading α bound) (y : Reading α bound') : Prop :=
  Extends all (fun p p' => p.rest <:+ all ∧ p'.rest = p.rest ++ us ∧ p'.value = p.value) x y

theorem ReadOn.bind {R : β → β' → Prop} {x : Reading α bound} {y : Reading α bound'}
    {k : Parsed α bound → Except Failure β} {k' : Parsed α bound' → Except Failure β'}
    (first : ReadOn all us x y)
    (next : ∀ {a rest fewer fewer'}, Reads x a rest → rest <:+ all →
      Extends all R (k ⟨a, rest, fewer⟩) (k' ⟨a, rest ++ us, fewer'⟩))
    : Extends all R (x >>= k) (y >>= k') := by
  refine Extends.bind first fun {p p'} read results => ?_
  obtain ⟨a, rest, fewer⟩ := p
  obtain ⟨a', rest', fewer'⟩ := p'
  obtain ⟨within, left, same⟩ := results
  cases left
  cases same
  exact next ⟨fewer, read⟩ within

/-- What is read is read as well where more tokens follow. -/
theorem ReadOn.reads {x : Reading α bound} {y : Reading α bound'} {a : α} {rest : List Token}
    (h : ReadOn all us x y) (read : Reads x a rest)
    : rest <:+ all ∧ Reads y a (rest ++ us) := by
  obtain ⟨fewer, rfl⟩ := read
  cases h with
  | @ok _ p' results =>
      obtain ⟨a', rest', fewer'⟩ := p'
      obtain ⟨within, left, same⟩ := results
      exact ⟨within, reads_ok.mpr ⟨same.symm, left.symm⟩⟩

/-- What is rejected is rejected as well where more tokens follow. -/
theorem Extends.of_rejected {R : α → β → Prop} {error : SyntaxError} {y : Except Failure β}
    (h : Extends all R (.error (.rejected error)) y)
    : error.Blames all ∧ y = .error (.rejected error) := by
  cases h with
  | rejected blames => exact ⟨blames, rfl⟩

end

namespace Declarator

variable {ts r : List Token} {t : Token}

theorem skipStars_append (found : skipStars ts = t :: r) (us : List Token)
    : skipStars (ts ++ us) = t :: (r ++ us) := by
  unfold skipStars at found ⊢
  rw [List.dropWhile_append, found]
  rfl

theorem countStars_append (found : skipStars ts = t :: r) (us : List Token)
    : countStars (ts ++ us) = countStars ts := by
  unfold skipStars at found
  unfold countStars
  have parts : ts.takeWhile (fun t => t.kind = .star) ++ t :: r = ts :=
    found ▸ List.takeWhile_append_dropWhile
  have parts := congrArg List.length parts
  rw [List.length_append, List.length_cons] at parts
  rw [List.takeWhile_append, if_neg (by omega)]

end Declarator

namespace Grammar

variable {all us ts rest : List Token}

-----------------------------------------------------------------------------------------
-- Heads
-----------------------------------------------------------------------------------------

/-- What reads one token of a kind has that token to blame if it is of another kind. -/
theorem one_on (read : (ts : List Token) → Reading Token ts.length) (kind : Kind)
    (cause : Token → SyntaxError.Cause)
    (blamed : ∀ {t : Token}, t ∈ all → t.kind ≠ kind → SyntaxError.Blames all ⟨cause t, t.pos⟩)
    (none : read [] = .error .ranOut)
    (some : ∀ t ts, read (t :: ts) = if t.kind = kind then .ok ⟨t, ts, fewer_tail t ts⟩
      else .error (.reject (cause t) t))
    (within : ts <:+ all) (us : List Token)
    : ReadOn all us (read ts) (read (ts ++ us)) := by
  cases ts with
  | nil =>
      rw [none]
      exact .ranOut
  | cons t ts =>
      rw [List.cons_append, some, some]
      split
      · exact .ok ⟨(List.suffix_cons t ts).trans within, rfl, rfl⟩
      · next other => exact .rejected (blamed (Token.mem_of_cons_suffix within) other)

theorem expect_on (kind : Kind) (within : ts <:+ all) (us : List Token)
    : ReadOn all us (expect kind ts) (expect kind (ts ++ us)) :=
  one_on (expect kind) kind (.expected kind) .expected rfl (fun _ _ => rfl) within us

theorem identifier_on (within : ts <:+ all) (us : List Token)
    : ReadOn all us (identifier ts) (identifier (ts ++ us)) :=
  one_on identifier .identifier .expectedIdentifier .expectedIdentifier rfl (fun _ _ => rfl)
    within us

theorem typeName_on (within : ts <:+ all) (us : List Token)
    : ReadOn all us (typeName ts) (typeName (ts ++ us)) := by
  cases ts with
  | nil => exact .ranOut
  | cons t ts =>
      have inside := Token.mem_of_cons_suffix within
      obtain ⟨kind, text, value, pos⟩ := t
      cases kind with
      | type scalar => exact .ok ⟨(List.suffix_cons _ ts).trans within, rfl, rfl⟩
      | _ => exact .rejected (.expectedType inside rfl)

/-- The name after stars is read where the stars end. -/
theorem identifier_skipStars_on (within : ts <:+ all) (us : List Token)
    : ReadOn all us (identifier (Declarator.skipStars ts))
        (identifier (Declarator.skipStars (ts ++ us))) := by
  cases found : Declarator.skipStars ts with
  | nil => exact .ranOut
  | cons t r =>
      have within : t :: r <:+ all := found ▸ (List.dropWhile_suffix _).trans within
      rw [Declarator.skipStars_append found]
      exact identifier_on within us

theorem typedName_on (within : ts <:+ all) (us : List Token)
    : ReadOn all us (typedName ts) (typedName (ts ++ us)) := by
  refine (typeName_on within us).bind fun _ within => ?_
  refine (identifier_skipStars_on within us).bind fun named within => ?_
  dsimp only
  rw [Declarator.countStars_append (reads_identifier.mp named).1]
  exact .ok ⟨within, rfl, rfl⟩

mutual

theorem paramList_on {ts : List Token} (within : ts <:+ all) (us : List Token)
    : ReadOn all us (paramList ts) (paramList (ts ++ us)) := by
  rw [paramList, paramList]
  refine (typedName_on within us).bind fun _ within => ?_
  exact (paramTail_on within us).bind fun _ within => .ok ⟨within, rfl, rfl⟩
termination_by ts.length
decreasing_by omega

theorem paramTail_on {ts : List Token} (within : ts <:+ all) (us : List Token)
    : ReadOn all us (paramTail ts) (paramTail (ts ++ us)) := by
  match ts with
  | [] =>
      rw [paramTail]
      exact .ranOut
  | t :: ts =>
      rw [List.cons_append, paramTail, paramTail]
      split
      · have within : ts <:+ all := (List.suffix_cons t ts).trans within
        exact (paramList_on within us).bind fun _ within => .ok ⟨within, rfl, rfl⟩
      · exact (expect_on .closeParen within us).bind fun _ within => .ok ⟨within, rfl, rfl⟩
termination_by ts.length
decreasing_by simp only [List.length_cons] at *; omega

end

theorem params_on (within : ts <:+ all) (us : List Token)
    : ReadOn all us (params ts) (params (ts ++ us)) := by
  cases ts with
  | nil => exact .ranOut
  | cons t ts =>
      rw [List.cons_append, params, params]
      split
      · exact .ok ⟨(List.suffix_cons t ts).trans within, rfl, rfl⟩
      · exact paramList_on within us

-----------------------------------------------------------------------------------------
-- Bodies
-----------------------------------------------------------------------------------------

/-- A window that is found stays, and one that is not is closed by none of the tokens. -/
theorem braceWindow_on (within : ts <:+ all) (us : List Token)
    : Extends all Eq (braceWindow ts) (braceWindow (ts ++ us)) := by
  cases found : braceWindow ts with
  | ok window =>
      obtain ⟨start, enclosed⟩ := braceWindow_eq_ok.mp found
      rw [braceWindow_eq_ok.mpr ⟨start.trans (List.prefix_append ts us), enclosed⟩]
      exact .ok rfl
  | error failure =>
      cases ts with
      | nil =>
          cases found
          exact .ranOut
      | cons t ts =>
          rw [braceWindow] at found
          split at found
          · split at found
            · cases found
            · cases found
              exact .ranOut
          · next other =>
              cases found
              rw [List.cons_append, braceWindow, if_neg other]
              exact .rejected (.expected (Token.mem_of_cons_suffix within) other)

/-- A block ends in its window, so the tokens after it are only left. -/
theorem block_on {window : List Token} (found : braceWindow ts = .ok window)
    (within : ts <:+ all) (frame : Frame) (us : List Token)
    : ReadOn all us (block frame ts) (block frame (ts ++ us)) := by
  obtain ⟨after, rfl⟩ := (braceWindow_eq_ok.mp found).1
  obtain ⟨after', same, here | there⟩ := block_local found within frame (after ++ us)
  · cases List.append_cancel_left same
    obtain ⟨body, ⟨_, read⟩, ⟨_, read'⟩⟩ := here
    rw [read, List.append_assoc, read']
    exact .ok ⟨(List.suffix_append window after).trans within, rfl, rfl⟩
  · obtain ⟨error, blames, failed, failed'⟩ := there
    rw [failed, List.append_assoc, failed']
    exact .rejected blames

/-- What is read before a block is the head of a function with that body. -/
theorem defines_of_reads {head : Param} {left : Token} {ps : List Param}
    {r₁ r₂ r₃ window : List Token} (within : ts <:+ all) (named : Reads (typedName ts) head r₁)
    (opened : Reads (expect .openParen r₁) left r₂) (given : Reads (params r₂) ps r₃)
    (found : braceWindow r₃ = .ok window)
    : Token.Defines all head ps window := by
  obtain ⟨before, rfl⟩ := within
  obtain ⟨h, rfl, spelled⟩ := reads_param.mp named
  obtain ⟨rfl, opening⟩ := reads_expect.mp opened
  obtain ⟨p, right, rfl, spelled', closing⟩ := reads_params.mp given
  obtain ⟨⟨after, rfl⟩, enclosed⟩ := braceWindow_eq_ok.mp found
  exact ⟨rfl, spelled, opening, spelled', closing, enclosed⟩

/-- What follows a function does not matter, unless the tokens end in it. -/
theorem function_on (within : ts <:+ all) (us : List Token)
    : ReadOn all us (function ts) (function (ts ++ us)) := by
  unfold function
  refine (typedName_on within us).bind fun {head _ _ _} named within₁ => ?_
  refine (expect_on .openParen within₁ us).bind fun opened within₂ => ?_
  refine (params_on within₂ us).bind fun {ps _ _ _} given within₃ => ?_
  refine (braceWindow_on within₃ us).bind fun {window _} found same => ?_
  cases same
  have defined := defines_of_reads within named opened given found
  -- The frame is that of the window, which is the same with more tokens after it.
  cases laid : Frame.ofBody head.name ps window with
  | error error => exact .rejected (Frame.ofBody_blames defined laid)
  | ok frame => exact (block_on found within₃ frame us).bind fun _ within => .ok ⟨within, rfl, rfl⟩

-----------------------------------------------------------------------------------------
-- Functions
-----------------------------------------------------------------------------------------

section

variable {f : Function} {fs : List Function} {error : SyntaxError}

/-- The functions after the first one are read from what it leaves. -/
theorem functions_of_reads (read : Reads (function ts) f rest)
    : functions ts = (functions rest).map (f :: ·) := by
  obtain ⟨fewer, read⟩ := read
  cases ts with
  | nil => cases fewer
  | cons t ts =>
      rw [functions, read]
      show (functions rest >>= fun more => pure (f :: more)) = _
      cases functions rest <;> rfl

/-- Functions are read one after the other. -/
theorem functions_append (read : functions ts = .ok fs) (us : List Token)
    : functions (ts ++ us) = (functions us).map (fs ++ ·) := by
  induction fs generalizing ts with
  | nil =>
      rcases functions_eq_ok.mp read with ⟨rfl, -⟩ | ⟨_, _, _, -, -, other⟩
      · rw [List.nil_append]
        cases functions us <;> rfl
      · cases other
  | cons f fs ih =>
      rcases functions_eq_ok.mp read with ⟨-, other⟩ | ⟨_, rest, _, first, others, same⟩
      · cases other
      · cases same
        obtain ⟨-, first⟩ := (function_on List.suffix_rfl us).reads first
        rw [functions_of_reads first, ih others]
        cases functions us <;> rfl

theorem functions_of_error {t : Token} {failure : Failure}
    (failed : function (t :: ts) = .error failure)
    : functions (t :: ts) = .error failure := by
  rw [functions, failed]
  rfl

/-- Functions that are rejected have a token to blame for it, whatever follows. -/
theorem functions_rejected (within : ts <:+ all)
    (failed : functions ts = .error (.rejected error)) (us : List Token)
    : error.Blames all ∧ functions (ts ++ us) = .error (.rejected error) := by
  induction length : ts.length using Nat.strongRecOn generalizing ts with
  | ind n ih =>
      cases ts with
      | nil =>
          rw [functions] at failed
          cases failed
      | cons t r =>
          have first := function_on within us
          cases read : function (t :: r) with
          | error failure =>
              rw [functions_of_error read] at failed
              cases failed
              rw [read] at first
              obtain ⟨blames, same⟩ := first.of_rejected
              exact ⟨blames, functions_of_error same⟩
          | ok p =>
              obtain ⟨f, rest, fewer⟩ := p
              have reads : Reads (function (t :: r)) f rest := ⟨fewer, read⟩
              obtain ⟨within, reads'⟩ := first.reads reads
              rw [functions_of_reads reads] at failed
              have others : functions rest = .error (.rejected error) := by
                cases more : functions rest with
                | ok fs =>
                    rw [more] at failed
                    cases failed
                | error failure =>
                    rw [more] at failed
                    cases failed
                    rfl
              obtain ⟨blames, same⟩ := ih rest.length (length ▸ fewer) within others rfl
              refine ⟨blames, ?_⟩
              rw [functions_of_reads reads', same]
              rfl

end

end Grammar

-----------------------------------------------------------------------------------------
-- Programs
-----------------------------------------------------------------------------------------

section

variable {ts us : List Token} {error : SyntaxError}

/-- An error is that of the readers, at the end of the tokens if they ran out of them. -/
theorem Program.ofTokens_eq_error
    : Program.ofTokens ts = .error error
      ↔ Grammar.functions ts = .error (.rejected error)
        ∨ Grammar.functions ts = .error .ranOut ∧ error = ⟨.unexpectedEnd, Token.endOf ts⟩ := by
  unfold Program.ofTokens
  cases Grammar.functions ts with
  | ok fs => simp
  | error failure =>
      cases failure with
      | ranOut => simp [Failure.locate, eq_comm]
      | rejected error' => simp [Failure.locate]

theorem Token.endOf_append (nonempty : us ≠ []) : Token.endOf (ts ++ us) = Token.endOf us := by
  unfold Token.endOf
  rw [List.getLast?_append_of_ne_nil ts nonempty]

end

/-- More tokens after a program are read as if they were alone, and they come after an error
without changing it, unless the error is that the tokens end.
-/
theorem ofTokens_extends (ts us : List Token)
    : (∀ error, Program.ofTokens ts = .error error → error.cause ≠ .unexpectedEnd →
          Program.ofTokens (ts ++ us) = .error error)
      ∧ ∀ program, Program.ofTokens ts = .ok program →
          Program.ofTokens (ts ++ us)
            = (Program.ofTokens us).map fun more => ⟨program.functions ++ more.functions⟩ := by
  constructor
  · intro error failed inner
    rcases Program.ofTokens_eq_error.mp failed with rejected | ⟨-, rfl⟩
    · obtain ⟨-, rejected⟩ := Grammar.functions_rejected List.suffix_rfl rejected us
      exact Program.ofTokens_eq_error.mpr (.inl rejected)
    · exact absurd rfl inner
  · intro program read
    have both := Grammar.functions_append (Program.ofTokens_eq_ok.mp read) us
    cases others : Program.ofTokens us with
    | ok more =>
        rw [Program.ofTokens_eq_ok.mp others] at both
        exact Program.ofTokens_eq_ok.mpr both
    | error error =>
        refine Program.ofTokens_eq_error.mpr ?_
        rcases Program.ofTokens_eq_error.mp others with rejected | ⟨ranOut, rfl⟩
        · rw [rejected] at both
          exact .inl both
        · have nonempty : us ≠ [] := by
            rintro rfl
            rw [Grammar.functions] at ranOut
            cases ranOut
          rw [ranOut] at both
          exact .inr ⟨both, by rw [Token.endOf_append nonempty]⟩

namespace Sequel

/-- A function that does nothing. -/
def idle : List Token :=
  [⟨.type .int, "int", 0, 0⟩, ⟨.identifier, "f", 0, 4⟩, ⟨.openParen, "(", 0, 5⟩,
    ⟨.closeParen, ")", 0, 6⟩, ⟨.openBrace, "\x7b", 0, 8⟩, ⟨.closeBrace, "\x7d", 0, 9⟩]

/-- A function with an unknown variable. -/
def unknown : List Token :=
  [⟨.type .int, "int", 0, 0⟩, ⟨.identifier, "g", 0, 4⟩, ⟨.openParen, "(", 0, 5⟩,
    ⟨.closeParen, ")", 0, 6⟩, ⟨.openBrace, "\x7b", 0, 8⟩, ⟨.identifier, "x", 0, 10⟩,
    ⟨.semicolon, ";", 0, 11⟩, ⟨.closeBrace, "\x7d", 0, 13⟩]

end Sequel

/-- The variable is unknown with a function before it and with any tokens after it. -/
theorem ofTokens_extends_unknown
    : Program.ofTokens Sequel.idle = .ok ⟨[⟨"f", 0, [], []⟩]⟩
      ∧ Program.ofTokens Sequel.unknown = .error ⟨.unknownIdentifier "x", 10⟩
      ∧ Program.ofTokens (Sequel.idle ++ Sequel.unknown) = .error ⟨.unknownIdentifier "x", 10⟩
      ∧ ∀ us, Program.ofTokens (Sequel.unknown ++ us) = .error ⟨.unknownIdentifier "x", 10⟩ := by
  have read : Program.ofTokens Sequel.idle = .ok ⟨[⟨"f", 0, [], []⟩]⟩ := by with_unfolding_all rfl
  have failed : Program.ofTokens Sequel.unknown = .error ⟨.unknownIdentifier "x", 10⟩ := by
    with_unfolding_all rfl
  refine ⟨read, failed, ?_, fun us => ?_⟩
  · rw [(ofTokens_extends Sequel.idle Sequel.unknown).2 _ read, failed]
    rfl
  · exact (ofTokens_extends Sequel.unknown us).1 _ failed (by simp)

/-- An error is at the token that it is about, or it is that the tokens end, and then it is at the
end of the last one.
-/
theorem ofTokens_placesErrors (ts : List Token) (error : SyntaxError)
    (failed : Program.ofTokens ts = .error error)
    : error.Blames ts ∨ (error.cause = .unexpectedEnd ∧ Token.EndAt ts error.pos) := by
  rcases Program.ofTokens_eq_error.mp failed with rejected | ⟨-, rfl⟩
  · exact .inl (Grammar.functions_rejected List.suffix_rfl rejected []).1
  · exact .inr ⟨rfl, Token.endAt_endOf ts⟩

namespace Crowded

/-- A function with an array that fills its frame and another variable after it. -/
def tokens : List Token :=
  [⟨.type .int, "int", 0, 0⟩, ⟨.identifier, "f", 0, 4⟩, ⟨.openParen, "(", 0, 5⟩,
    ⟨.closeParen, ")", 0, 6⟩, ⟨.openBrace, "\x7b", 0, 8⟩, ⟨.type .int, "int", 0, 10⟩,
    ⟨.identifier, "a", 0, 14⟩, ⟨.openBracket, "[", 0, 15⟩,
    ⟨.constant, "268435454", 268435454, 16⟩, ⟨.closeBracket, "]", 0, 25⟩,
    ⟨.semicolon, ";", 0, 26⟩, ⟨.type .int, "int", 0, 28⟩, ⟨.identifier, "b", 0, 32⟩,
    ⟨.semicolon, ";", 0, 33⟩, ⟨.closeBrace, "\x7d", 0, 35⟩]

end Crowded

/-- There is no room for the last variable, and without the brace after it the tokens end. -/
theorem ofTokens_placesErrors_crowded
    : Program.ofTokens Crowded.tokens = .error ⟨.invalidArrayLength 1, 32⟩
      ∧ SyntaxError.Blames Crowded.tokens ⟨.invalidArrayLength 1, 32⟩
      ∧ Program.ofTokens (Crowded.tokens.take 14) = .error ⟨.unexpectedEnd, 34⟩
      ∧ Token.EndAt (Crowded.tokens.take 14) 34 := by
  have failed : Program.ofTokens Crowded.tokens = .error ⟨.invalidArrayLength 1, 32⟩ := by
    with_unfolding_all rfl
  have ended : Program.ofTokens (Crowded.tokens.take 14) = .error ⟨.unexpectedEnd, 34⟩ := by
    with_unfolding_all rfl
  refine ⟨failed, ?_, ended, ?_⟩
  · rcases ofTokens_placesErrors _ _ failed with blames | other
    · exact blames
    · cases other.1
  · rcases ofTokens_placesErrors _ _ ended with blames | ⟨-, place⟩
    · exact absurd rfl blames.cause_ne
    · exact place

end SlotC
