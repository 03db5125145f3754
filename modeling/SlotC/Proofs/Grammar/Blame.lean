import SlotC.Proofs.Frame.Room
import SlotC.Proofs.Grammar.LikePrograms
import SlotC.Proofs.Grammar.Window

/-! The tokens that errors are about. An error is at the place of a token of the program, and that
token is of the wrong kind, or it is a name or a length that does not fit. Whether the frame of a
function has room for a scalar is seen from the declarations before it.
-/

namespace SlotC

-----------------------------------------------------------------------------------------
-- Functions among tokens
-----------------------------------------------------------------------------------------

/-- Among the tokens is a function with the head, the parameters and the body. -/
inductive Token.Defines (ts : List Token) (head : Param) (params : List Param)
    (body : List Token) : Prop where
  | mk {before h p after : List Token} {left right : Token}
      (same : ts = before ++ (h ++ left :: (p ++ right :: (body ++ after))))
      (named : Param.Spelled h head) (opening : left.kind = .openParen)
      (given : Param.ListSpelled p params) (closing : right.kind = .closeParen)
      (enclosed : Token.Enclosed body)

/-- The token is the name of a scalar for which the frame of its function has no room after the
variables that are declared before it.
-/
inductive Token.Unplaced (ts : List Token) (name : Token) : Prop where
  | mk {head : Param} {params : List Param} {body rest : List Token} {frame : Frame} {t : Token}
      {scalar : Scalar} {pointers : Nat} (defined : Token.Defines ts head params body)
      (reaches : Frame.Reaches params body frame (t :: rest)) (own : t.kind = .type scalar)
      (shaped : Declarator.Shaped rest ⟨name, pointers, none⟩)
      (full : Frame.maxSize < frame.size + slotSize)

/-- The error is at the token that it is about, which is one of the tokens. -/
inductive SyntaxError.Blames (ts : List Token) : SyntaxError → Prop where
  | expected {kind : Kind} {t : Token} (inside : t ∈ ts) (other : t.kind ≠ kind)
      : Blames ts ⟨.expected kind t, t.pos⟩
  | expectedIdentifier {t : Token} (inside : t ∈ ts) (other : t.kind ≠ .identifier)
      : Blames ts ⟨.expectedIdentifier t, t.pos⟩
  | expectedNumber {t : Token} (inside : t ∈ ts) (other : t.kind ≠ .constant)
      : Blames ts ⟨.expectedNumber t, t.pos⟩
  | expectedType {t : Token} (inside : t ∈ ts) (other : t.kind.isType = false)
      : Blames ts ⟨.expectedType t, t.pos⟩
  | badFactor {t : Token} (inside : t ∈ ts) (other : t.kind.startsTerm = false)
      : Blames ts ⟨.badFactor t, t.pos⟩
  | unknownIdentifier {t : Token} (inside : t ∈ ts) (own : t.kind = .identifier)
      : Blames ts ⟨.unknownIdentifier t.text, t.pos⟩
  | duplicateIdentifier {t : Token} (inside : t ∈ ts) (own : t.kind = .identifier)
      : Blames ts ⟨.duplicateIdentifier t.text, t.pos⟩
  | tooManyParameters {t : Token} (inside : t ∈ ts) (own : t.kind = .identifier)
      : Blames ts ⟨.tooManyParameters t.text, t.pos⟩
  | arrayLength {t : Token} (inside : t ∈ ts) (own : t.kind = .constant)
      : Blames ts ⟨.invalidArrayLength t.value, t.pos⟩
  | scalar {t : Token} (inside : t ∈ ts) (own : t.kind = .identifier) (full : t.Unplaced ts)
      : Blames ts ⟨.invalidArrayLength 1, t.pos⟩
  | sizeofOperand {before after : List Token} {s t : Token} (same : ts = before ++ s :: t :: after)
      (own : s.kind = .sizeofWord)
      : Blames ts ⟨.invalidSizeofOperand, t.pos⟩

/-- What is blamed on a token is not that the tokens end. -/
theorem SyntaxError.Blames.cause_ne {ts : List Token} {error : SyntaxError}
    (blames : error.Blames ts)
    : error.cause ≠ .unexpectedEnd := by
  intro ended
  cases blames <;> cases ended

/-- A name that is read is among the tokens that it is read from. -/
theorem Param.Spelled.name_mem {l : List Token} {param : Param} (spelled : Param.Spelled l param)
    : param.name ∈ l ∧ param.name.kind = .identifier := by
  obtain ⟨-, -, named⟩ := spelled
  exact ⟨by simp, named⟩

theorem Param.AllSpelled.name_mem {l : List Token} {params : List Param}
    (spelled : Param.AllSpelled l params)
    : ∀ param ∈ params, param.name ∈ l ∧ param.name.kind = .identifier := by
  induction spelled with
  | last own => exact List.forall_mem_singleton.mpr own.name_mem
  | more own _ _ ih =>
      refine List.forall_mem_cons.mpr ⟨?_, fun param member => ?_⟩
      · exact own.name_mem.imp_left (List.mem_append_left _)
      · exact (ih param member).imp_left fun inside => by simp [inside]

/-- The tokens of a body end in a closing brace. -/
theorem Token.Enclosed.ends {ts : List Token} (enclosed : Token.Enclosed ts)
    : ∃ last, ts.getLast? = some last ∧ last.kind = .closeBrace := by
  cases ts with
  | nil => cases enclosed.starts
  | cons t ts =>
      obtain ⟨-, closing⟩ := Token.enclosed_cons.mp enclosed
      have found := Grammar.untilClosed_eq_some.mpr ⟨List.prefix_rfl, closing⟩
      obtain ⟨last, ends, own⟩ := Grammar.untilClosed_ends found
      exact ⟨last, by simp [List.getLast?_cons, ends], own⟩

namespace Token.Defines

variable {all : List Token} {head : Param} {params : List Param} {body : List Token}

theorem head_mem (defined : Defines all head params body)
    : head.name ∈ all ∧ head.name.kind = .identifier := by
  obtain ⟨rfl, named, -, -, -, -⟩ := defined
  exact named.name_mem.imp_left fun inside => by simp [inside]

theorem params_mem (defined : Defines all head params body)
    : ∀ param ∈ params, param.name ∈ all ∧ param.name.kind = .identifier := by
  obtain ⟨rfl, -, -, given, -, -⟩ := defined
  cases given with
  | none => simp
  | some spelled =>
      intro param member
      exact (spelled.name_mem param member).imp_left fun inside => by simp [inside]

theorem body_subset (defined : Defines all head params body) : body ⊆ all := by
  obtain ⟨rfl, -, -, -, -, -⟩ := defined
  intro t inside
  simp [inside]

theorem body_ends (defined : Defines all head params body)
    : ∃ last, body.getLast? = some last ∧ last.kind = .closeBrace := by
  obtain ⟨-, -, -, -, -, enclosed⟩ := defined
  exact enclosed.ends

end Token.Defines

-----------------------------------------------------------------------------------------
-- Errors of declarations
-----------------------------------------------------------------------------------------

section

variable {all : List Token} {error : SyntaxError} {failure : Failure}

theorem Declarator.checkLength_blames {length : Token} (inside : length ∈ all)
    (failed : checkLength length = .error (.rejected error))
    : error.Blames all := by
  unfold checkLength at failed
  split at failed
  · next other =>
      cases failed
      exact .expectedNumber inside other
  · next own =>
      split at failed
      · cases failed
        exact .arrayLength inside (not_not.mp own)
      · cases failed

/-- Where tokens do not have the shape of a declaration, one of them is to blame. -/
theorem Declarator.ofTokens_blames {ts : List Token} (inside : ts ⊆ all)
    (failed : ofTokens ts = .error (.rejected error))
    : error.Blames all := by
  have inside : skipStars ts ⊆ all := List.Subset.trans (List.dropWhile_subset _) inside
  unfold ofTokens at failed
  cases list : skipStars ts with
  | nil =>
      rw [list] at failed
      cases failed
  | cons name rest =>
      rw [list] at failed inside
      dsimp only at failed
      split at failed
      · next other =>
          cases failed
          exact .expectedIdentifier (inside (by simp)) other
      cases rest with
      | nil => cases failed
      | cons next rest =>
          obtain ⟨kind, text, value, pos⟩ := next
          cases kind with
          | openBracket =>
              cases rest with
              | nil => cases failed
              | cons length rest =>
                  dsimp only at failed
                  cases checked : checkLength length with
                  | error failure =>
                      rw [checked] at failed
                      cases failed
                      exact checkLength_blames (inside (by simp)) checked
                  | ok =>
                      rw [checked] at failed
                      cases rest with
                      | nil => cases failed
                      | cons close rest =>
                          replace failed : (if close.kind ≠ .closeBracket then _ else _) = _ :=
                            failed
                          split at failed
                          · next other =>
                              cases failed
                              exact .expected (inside (by simp)) other
                          · cases failed
          | _ => cases failed

namespace Frame

variable {frame : Frame} {params : List Param} {ts : List Token}

/-- A variable is not added if its name is taken or there is no room for it. -/
theorem declare_eq_error {scalar : Scalar} {d : Declarator} {argIndex : Option Nat}
    (failed : frame.declare scalar d argIndex = .error error)
    : error = ⟨.duplicateIdentifier d.name.text, d.name.pos⟩
      ∨ maxSize < frame.size + d.bytes ∧ error = d.tooLarge := by
  unfold declare at failed
  split at failed
  · cases failed
    exact .inl rfl
  · dsimp only at failed
    split at failed
    · cases failed
    · next large =>
        cases failed
        exact .inr ⟨Nat.lt_of_not_le large, rfl⟩

/-- Where there is room for all parameters, two of them have the same name if they cannot be
added.
-/
theorem declareParams_eq_error {index : Nat}
    (room : frame.size + slotSize * params.length ≤ maxSize)
    (failed : frame.declareParams index params = .error error)
    : ∃ param ∈ params, error = ⟨.duplicateIdentifier param.name.text, param.name.pos⟩ := by
  induction params generalizing frame index with
  | nil => cases failed
  | cons param params ih =>
      rw [List.length_cons, Nat.mul_add, Nat.mul_one] at room
      rw [declareParams] at failed
      cases added : frame.declare param.scalar ⟨param.name, param.pointers, none⟩ (some index) with
      | error error' =>
          rw [added] at failed
          cases failed
          rcases declare_eq_error added with same | ⟨large, -⟩
          · exact ⟨param, by simp, same⟩
          · have large : maxSize < frame.size + slotSize := large
            omega
      | ok frame' =>
          rw [added] at failed
          obtain ⟨-, -, rfl⟩ := declare_eq_ok.mp
            (show frame.declare (Entry.scalar ⟨param.scalar, ⟨param.name, param.pointers, none⟩,
              some index⟩) _ _ = _ from added)
          have room : (frame.size + slotSize) + slotSize * params.length ≤ maxSize := by omega
          obtain ⟨other, member, same⟩ := ih room failed
          exact ⟨other, List.mem_cons_of_mem param member, same⟩

/-- The search for declarations fails at a type, where what follows has no shape or the frame that
it has come to does not take it.
-/
theorem declareLocals_eq_error (failed : frame.declareLocals ts = .error failure)
    : ∃ frame' t rest scalar, Accepts frame ts frame' (t :: rest) ∧ t.kind = .type scalar
        ∧ (Declarator.ofTokens rest = .error failure
          ∨ ∃ d error, Declarator.Shaped rest d ∧ frame'.declare scalar d none = .error error
              ∧ failure = .rejected error) := by
  induction ts generalizing frame with
  | nil => cases failed
  | cons t ts ih =>
      cases kind : t.kind with
      | type scalar =>
          simp only [declareLocals, kind] at failed
          cases found : Declarator.ofTokens ts with
          | error failure' =>
              rw [found] at failed
              cases failed
              exact ⟨frame, t, ts, scalar, .here, kind, .inl found⟩
          | ok d =>
              rw [found] at failed
              cases d with
              | none =>
                  obtain ⟨frame', t', rest, scalar', accepts, fault⟩ := ih failed
                  exact ⟨frame', t', rest, scalar', .function kind found accepts, fault⟩
              | some d =>
                  have shaped := Declarator.ofTokens_eq_some.mp found
                  replace failed : ((frame.declare scalar d none).mapError Failure.rejected
                      >>= fun frame => frame.declareLocals ts) = .error failure := failed
                  cases added : frame.declare scalar d none with
                  | error error =>
                      rw [added] at failed
                      cases failed
                      exact ⟨frame, t, ts, scalar, .here, kind, .inr ⟨d, error, shaped, added, rfl⟩⟩
                  | ok frame₁ =>
                      rw [added] at failed
                      obtain ⟨frame', t', rest, scalar', accepts, fault⟩ := ih failed
                      exact ⟨frame', t', rest, scalar', .declared kind shaped added accepts, fault⟩
      | _ =>
          simp only [declareLocals, kind] at failed
          obtain ⟨frame', t', rest, scalar', accepts, fault⟩ := ih failed
          exact ⟨frame', t', rest, scalar', .pass (by rw [kind]; rfl) accepts, fault⟩

theorem Accepts.suffix {frame' : Frame} {rest : List Token}
    (accepts : Accepts frame ts frame' rest)
    : rest <:+ ts := by
  induction accepts with
  | here => exact List.suffix_rfl
  | pass _ _ ih | function _ _ _ ih | declared _ _ _ _ ih => exact ih.trans (List.suffix_cons _ _)

/-- What the search of a body has come to is a part of the tokens that the body is among. -/
theorem Reaches.subset {head : Param} {body rest : List Token} {t : Token}
    (reaches : Reaches params body frame (t :: rest))
    (defined : Token.Defines all head params body)
    : rest ⊆ all := by
  obtain ⟨start, -, accepts⟩ := reaches.accepts
  exact fun u member => defined.body_subset (accepts.suffix.subset (List.mem_cons_of_mem t member))

/-- A declaration that is refused has its name or its length to blame. -/
theorem declare_blames {head : Param} {body rest : List Token} {t : Token} {scalar : Scalar}
    {d : Declarator} (defined : Token.Defines all head params body)
    (reaches : Reaches params body frame (t :: rest)) (own : t.kind = .type scalar)
    (shaped : Declarator.Shaped rest d) (failed : frame.declare scalar d none = .error error)
    : error.Blames all := by
  have inside := reaches.subset defined
  have full := declare_eq_error failed
  cases shaped with
  | @single stars after name all' named alone =>
      rcases full with rfl | ⟨large, rfl⟩
      · exact .duplicateIdentifier (inside (by simp)) named
      · exact .scalar (inside (by simp)) named
          ⟨defined, reaches, own, .single all' named alone, large⟩
  | array _ named _ number _ _ =>
      rcases full with rfl | ⟨-, rfl⟩
      · exact .duplicateIdentifier (inside (by simp)) named
      · exact .arrayLength (inside (by simp)) number

/-- A function whose frame cannot be laid out has a token to blame for it. -/
theorem ofBody_blames {head : Param} {body : List Token}
    (defined : Token.Defines all head params body)
    (failed : ofBody head.name params body = .error error)
    : error.Blames all := by
  unfold ofBody at failed
  split at failed
  · cases failed
    obtain ⟨inside, own⟩ := defined.head_mem
    exact .tooManyParameters inside own
  · next few =>
      have few : params.length ≤ maxParams := Nat.le_of_not_lt few
      cases given : empty.declareParams 0 params with
      | error error' =>
          rw [given] at failed
          cases failed
          have room : empty.size + slotSize * params.length ≤ maxSize := by
            rw [maxParams] at few
            show 0 + 8 * params.length ≤ 0x7ffffff0
            omega
          obtain ⟨param, member, rfl⟩ := declareParams_eq_error room given
          obtain ⟨inside, own⟩ := defined.params_mem param member
          exact .duplicateIdentifier inside own
      | ok start =>
          replace failed : (start.declareLocals body).mapError (Failure.locate (Token.endOf body))
              = .error error := by
            rw [given] at failed
            exact failed
          cases searched : start.declareLocals body with
          | ok frame =>
              rw [searched] at failed
              cases failed
          | error failure =>
              rw [searched] at failed
              cases failure with
              | ranOut =>
                  -- The body ends in a brace, so it is never its end that is met too early.
                  obtain ⟨last, ends, closing⟩ := defined.body_ends
                  exact absurd searched (declareLocals_ne_ranOut ends closing)
              | rejected error' =>
                  cases failed
                  obtain ⟨frame, t, rest, scalar, accepts, own, fault⟩ :=
                    declareLocals_eq_error searched
                  have reaches : Reaches params body frame (t :: rest) :=
                    ⟨few, start, given, accepts⟩
                  rcases fault with shapeless | ⟨d, _, shaped, refused, same⟩
                  · exact Declarator.ofTokens_blames (reaches.subset defined) shapeless
                  · cases same
                    exact declare_blames defined reaches own shaped refused

end Frame

end

end SlotC
