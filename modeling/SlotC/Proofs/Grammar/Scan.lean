import SlotC.Proofs.Grammar.Stmt

/-! Scans of the tokens of a body, before its statements are read: the search for the brace
that closes it and the search for declarations. Over the tokens of a statement the first
finds as many braces closed as opened, and the second finds the variables that the statement
declares.
-/

namespace SlotC

/-- Whether the kind opens or closes a block. -/
def Kind.isBrace : Kind → Bool
  | .openBrace | .closeBrace => true
  | _ => false

/-- The kinds of token that no scan stops at. -/
def Kind.isInline (kind : Kind) : Bool :=
  !kind.isBrace && !kind.isType

/-- The length of an array is positive. -/
def Entry.Sound (e : Entry) : Prop :=
  ∀ length ∈ e.declarator.length, 1 ≤ length.value.toInt

namespace Grammar

variable {t : Token} {ts : List Token} {inner : Nat}

theorem untilClosed_open (own : t.kind = .openBrace)
    : untilClosed inner (t :: ts) = (untilClosed (inner + 1) ts).map (t :: ·) := by
  rw [untilClosed.eq_def]
  simp [own]

theorem untilClosed_close (own : t.kind = .closeBrace)
    : untilClosed (inner + 1) (t :: ts) = (untilClosed inner ts).map (t :: ·) := by
  rw [untilClosed.eq_def]
  simp [own]

theorem untilClosed_last (own : t.kind = .closeBrace) : untilClosed 0 (t :: ts) = some [t] := by
  rw [untilClosed.eq_def]
  simp [own]

/-- Tokens that are no braces are passed over. -/
theorem untilClosed_append {l : List Token} (none : ∀ t ∈ l, t.kind.isBrace = false)
    : untilClosed inner (l ++ ts) = (untilClosed inner ts).map (l ++ ·) := by
  induction l with
  | nil => simp
  | cons t l ih =>
      obtain ⟨own, others⟩ := List.forall_mem_cons.mp none
      have passed : untilClosed inner (t :: (l ++ ts))
          = (untilClosed inner (l ++ ts)).map (t :: ·) := by
        rw [untilClosed.eq_def]
        cases kind : t.kind <;> simp_all [Kind.isBrace]
      rw [List.cons_append, passed, ih others, Option.map_map]
      rfl

end Grammar

/-- Only types are looked at in the search for declarations. -/
theorem Entry.ofTokens_cons {t : Token} {ts : List Token} (own : t.kind.isType = false)
    : ofTokens (t :: ts) = ofTokens ts := by
  rw [ofTokens]
  cases kind : t.kind <;> simp_all [Kind.isType]

/-- After a type, a variable is declared unless a function is. -/
theorem Entry.ofTokens_type {t : Token} {ts : List Token} {scalar : Scalar} {found : List Entry}
    (own : t.kind = .type scalar)
    : ofTokens (t :: ts) = .ok found
      ↔ ∃ d more, Declarator.ofTokens ts = .ok d ∧ ofTokens ts = .ok more
          ∧ found = (d.map fun d => ⟨scalar, d, none⟩).toList ++ more := by
  simp only [ofTokens, own, bind_eq_ok]
  constructor
  · rintro ⟨d, head, rest⟩
    cases d with
    | none => exact ⟨none, found, head, rest, rfl⟩
    | some d =>
        obtain ⟨more, tail, same⟩ := bind_eq_ok.mp rest
        cases same
        exact ⟨some d, more, head, tail, rfl⟩
  · rintro ⟨d, more, head, tail, rfl⟩
    refine ⟨d, head, ?_⟩
    cases d with
    | none => exact tail
    | some d => exact bind_eq_ok.mpr ⟨more, tail, rfl⟩

theorem Entry.ofTokens_append {l rest : List Token} (none : ∀ t ∈ l, t.kind.isType = false)
    : ofTokens (l ++ rest) = ofTokens rest := by
  induction l with
  | nil => rfl
  | cons t l ih =>
      obtain ⟨own, others⟩ := List.forall_mem_cons.mp none
      rw [List.cons_append, ofTokens_cons own, ih others]

/-- After a type, the search finds a declaration as it is spelled. -/
theorem Declarator.ofTokens_eq_ok (rest : List Token) {stars n : List Token}
    {name last : Token} {length : Option Token} {d : Option Declarator}
    (all : ∀ star ∈ stars, star.kind = .star) (named : name.kind = .identifier)
    (array : ArrayLength n length) (closing : last.kind = .semicolon)
    : ofTokens (stars ++ name :: (n ++ last :: rest)) = .ok d
      ↔ (∀ number ∈ length, 1 ≤ number.value.toInt)
        ∧ d = some ⟨name, stars.length + (if length.isSome then 1 else 0), length⟩ := by
  obtain ⟨skipped, count⟩ := Grammar.skipStars_stars (n ++ last :: rest) all named
  unfold ofTokens
  rw [skipped, count]
  cases array with
  | none => simp [named, closing, eq_comm]
  | @some left number right opening own ending =>
      simp only [named, opening, own, ending, checkLength, List.cons_append, List.nil_append]
      by_cases positive : 1 ≤ number.value.toInt
      · have some : ¬ number.value.toInt ≤ 0 := by omega
        simp [positive, some, bind, Except.bind, eq_comm]
      · have none : number.value.toInt ≤ 0 := by omega
        simp [positive, none, bind, Except.bind]

/-- Both scans pass over the tokens, and the second finds the variables. -/
structure Scanned (l : List Token) (es : List Entry) : Prop where
  balanced : ∀ inner rest, Grammar.untilClosed inner (l ++ rest)
    = (Grammar.untilClosed inner rest).map (l ++ ·)
  entries : ∀ rest found, Entry.ofTokens (l ++ rest) = .ok found
    ↔ (∀ e ∈ es, e.Sound) ∧ ∃ more, Entry.ofTokens rest = .ok more ∧ found = es ++ more

namespace Scanned

variable {l r : List Token} {es es' : List Entry} {t : Token}

theorem nil : Scanned [] [] :=
  ⟨by simp, by simp⟩

/-- One after the other. -/
theorem append (first : Scanned l es) (second : Scanned r es') : Scanned (l ++ r) (es ++ es') := by
  refine ⟨?_, ?_⟩
  · intro inner rest
    rw [List.append_assoc, first.balanced, second.balanced, Option.map_map]
    simp [Function.comp_def]
  · intro rest found
    rw [List.append_assoc, first.entries, List.forall_mem_append, and_assoc]
    refine and_congr_right fun _ => ?_
    simp only [second.entries]
    constructor
    · rintro ⟨_, ⟨sound, more, rest', rfl⟩, rfl⟩
      exact ⟨sound, more, rest', (List.append_assoc es es' more).symm⟩
    · rintro ⟨sound, more, rest', rfl⟩
      exact ⟨es' ++ more, ⟨sound, more, rest', rfl⟩, List.append_assoc es es' more⟩

/-- Tokens that no scan stops at. -/
theorem inline (all : ∀ t ∈ l, t.kind.isInline) : Scanned l [] := by
  simp only [Kind.isInline, Bool.and_eq_true, Bool.not_eq_true', forall_and] at all
  refine ⟨?_, ?_⟩
  · intro inner rest
    exact Grammar.untilClosed_append all.1
  · intro rest found
    rw [Entry.ofTokens_append all.2]
    simp

/-- The scans go on after tokens that they do not stop at. -/
theorem after (scanned : Scanned r es) (all : ∀ t ∈ l, t.kind.isInline) : Scanned (l ++ r) es :=
  (inline all).append scanned

theorem cons {kind : Kind} (scanned : Scanned l es) (own : t.kind = kind)
    (inline : kind.isInline)
    : Scanned (t :: l) es :=
  scanned.after (List.forall_mem_singleton.mpr (own ▸ inline))

/-- A block. -/
theorem braces {left right : Token} (opening : left.kind = .openBrace) (inner : Scanned l es)
    (closing : right.kind = .closeBrace)
    : Scanned (left :: (l ++ [right])) es := by
  refine ⟨?_, ?_⟩
  · intro depth rest
    rw [List.cons_append, List.append_assoc, List.singleton_append,
      Grammar.untilClosed_open opening, inner.balanced, Grammar.untilClosed_close closing]
    simp [Function.comp_def]
  · intro rest found
    rw [List.cons_append, List.append_assoc, List.singleton_append,
      Entry.ofTokens_cons (by simp [opening, Kind.isType]), inner.entries,
      Entry.ofTokens_cons (by simp [closing, Kind.isType])]

/-- A declaration. -/
theorem declaration {h n : List Token} {param : Param} {length : Option Token} {last : Token}
    (head : Param.Spelled h param) (array : ArrayLength n length)
    (closing : last.kind = .semicolon)
    : Scanned (h ++ (n ++ [last])) [.ofDeclaration param length] := by
  obtain @⟨t, name, scalar, stars, own, all, named⟩ := head
  have inline : ∀ u ∈ stars ++ name :: (n ++ [last]), u.kind.isInline := by
    have inArray : ∀ u ∈ n, u.kind.isInline := by
      cases array with
      | none => simp
      | some opening own ending =>
          simp [opening, own, ending, Kind.isInline, Kind.isBrace, Kind.isType]
    have inStars : ∀ u ∈ stars, u.kind.isInline := by
      intro star member
      rw [all star member]
      rfl
    simp only [List.forall_mem_append, List.forall_mem_cons]
    exact ⟨inStars, by rw [named]; rfl, inArray, by rw [closing]; rfl, by simp⟩
  have others := Scanned.inline inline
  have parts (rest : List Token) : t :: (stars ++ [name]) ++ (n ++ [last]) ++ rest
      = t :: (stars ++ name :: (n ++ [last]) ++ rest) := by
    simp
  have parts' (rest : List Token) : stars ++ name :: (n ++ [last]) ++ rest
      = stars ++ name :: (n ++ last :: rest) := by
    simp
  refine ⟨?_, ?_⟩
  · intro inner rest
    have noBrace : ∀ u ∈ [t], u.kind.isBrace = false := by simp [own, Kind.isBrace]
    rw [parts, ← List.singleton_append, Grammar.untilClosed_append noBrace, others.balanced]
    simp [Function.comp_def]
  · intro rest found
    rw [parts, Entry.ofTokens_type own]
    constructor
    · rintro ⟨d, more, first, tail, rfl⟩
      rw [parts'] at first
      obtain ⟨sound, rfl⟩ := (Declarator.ofTokens_eq_ok rest all named array closing).mp first
      obtain ⟨-, more, tail, rfl⟩ := (others.entries _ _).mp tail
      exact ⟨List.forall_mem_singleton.mpr sound, more, tail, rfl⟩
    · rintro ⟨sound, more, tail, rfl⟩
      have found := (Declarator.ofTokens_eq_ok rest all named array closing).mpr
        ⟨List.forall_mem_singleton.mp sound, rfl⟩
      rw [← parts' rest] at found
      exact ⟨_, more, found, (others.entries _ _).mpr ⟨by simp, more, tail, rfl⟩, rfl⟩

end Scanned

-----------------------------------------------------------------------------------------
-- Expressions and statements
-----------------------------------------------------------------------------------------

namespace Term

mutual

/-- No scan stops in an expression. -/
theorem Spelled.inline {layer : Layer} {l : List Token} {e : Term} (spelled : Spelled layer l e)
    : ∀ t ∈ l, t.kind.isInline := by
  match spelled with
  | .operand inner => exact inner.inline
  | .tighter inner => exact inner.inline
  | .chain left own right =>
      have operators : ∀ p ∈ layer.operators, p.1.isInline := by cases layer <;> decide
      exact List.forall_mem_append.mpr
        ⟨left.inline, List.forall_mem_cons.mpr ⟨operators _ own, right.inline⟩⟩
  | .assign left own right =>
      exact List.forall_mem_append.mpr
        ⟨left.inline, List.forall_mem_cons.mpr ⟨own ▸ rfl, right.inline⟩⟩

/-- The same for an operand with signs. -/
theorem Unary.inline {l : List Token} {e : Term} (spelled : Unary l e)
    : ∀ t ∈ l, t.kind.isInline := by
  match spelled with
  | .primary inner => exact inner.inline
  | @Unary.signed _ _ t sign own operand =>
      have signs : sign.kind.isInline := by cases sign <;> rfl
      exact List.forall_mem_cons.mpr ⟨own ▸ signs, operand.inline⟩
  | .size own operand => exact List.forall_mem_cons.mpr ⟨own ▸ rfl, operand.inline⟩

/-- The same for an operand. -/
theorem Primary.inline {l : List Token} {e : Term} (spelled : Primary l e)
    : ∀ t ∈ l, t.kind.isInline := by
  match spelled with
  | .number own | .name own => exact List.forall_mem_singleton.mpr (own ▸ rfl)
  | .element own opening index closing =>
      exact List.forall_mem_cons.mpr ⟨own ▸ rfl, List.forall_mem_cons.mpr ⟨opening ▸ rfl,
        List.forall_mem_append.mpr ⟨index.inline, List.forall_mem_singleton.mpr (closing ▸ rfl)⟩⟩⟩
  | .callNone own opening closing =>
      exact List.forall_mem_cons.mpr ⟨own ▸ rfl, List.forall_mem_cons.mpr ⟨opening ▸ rfl,
        List.forall_mem_singleton.mpr (closing ▸ rfl)⟩⟩
  | .call own opening arguments closing =>
      exact List.forall_mem_cons.mpr ⟨own ▸ rfl, List.forall_mem_cons.mpr ⟨opening ▸ rfl,
        List.forall_mem_append.mpr
          ⟨arguments.inline, List.forall_mem_singleton.mpr (closing ▸ rfl)⟩⟩⟩
  | .group opening inner closing =>
      exact List.forall_mem_cons.mpr ⟨opening ▸ rfl, List.forall_mem_append.mpr
        ⟨inner.inline, List.forall_mem_singleton.mpr (closing ▸ rfl)⟩⟩

/-- The same for arguments. -/
theorem Arguments.inline {l : List Token} {es : List Term} (spelled : Arguments l es)
    : ∀ t ∈ l, t.kind.isInline := by
  match spelled with
  | .last argument => exact argument.inline
  | .more argument own others =>
      exact List.forall_mem_append.mpr
        ⟨argument.inline, List.forall_mem_cons.mpr ⟨own ▸ rfl, others.inline⟩⟩

end

theorem Grouped.inline {l : List Token} {e : Term} (grouped : Grouped l e)
    : ∀ t ∈ l, t.kind.isInline := by
  obtain ⟨opening, inner, closing⟩ := grouped
  exact (Primary.group opening inner closing).inline

theorem Optional.inline {l : List Token} {e : Option Term} (optional : Optional l e)
    : ∀ t ∈ l, t.kind.isInline := by
  cases optional with
  | none => simp
  | some spelled => exact spelled.inline

end Term

namespace Phrase

mutual

/-- The scans of a statement find the variables that it declares. -/
theorem Spelled.scanned {l : List Token} {p : Phrase} (spelled : Spelled l p)
    : Scanned l (p.leaves.filterMap Leaf.entry?) := by
  match spelled with
  | .expr value closing =>
      exact .inline (List.forall_mem_append.mpr
        ⟨value.inline, List.forall_mem_singleton.mpr (closing ▸ rfl)⟩)
  | .ret own value closing =>
      exact .inline (List.forall_mem_cons.mpr ⟨own ▸ rfl, List.forall_mem_append.mpr
        ⟨value.inline, List.forall_mem_singleton.mpr (closing ▸ rfl)⟩⟩)
  | .block opening body closing => exact body.scanned.braces opening closing
  | .branch own condition whenTrue =>
      exact (whenTrue.scanned.after condition.inline).cons own rfl
  | .branchElse own condition whenTrue between whenFalse =>
      have branches := whenTrue.scanned.append (whenFalse.scanned.cons between rfl)
      rw [← List.filterMap_append] at branches
      exact (branches.after condition.inline).cons own rfl
  | .whileLoop own condition body =>
      exact (body.scanned.after condition.inline).cons own rfl
  | @Spelled.forLoop _ _ _ _ start condition step _ _ _ _ _ _ own opening starts firstEnd continues
      secondEnd steps closing body =>
      have none : (((start.toList ++ condition.toList ++ step.toList).map .term).filterMap
          Leaf.entry?) = [] := by
        simp [Leaf.entry?]
      rw [leaves, List.filterMap_append, none]
      have third := (body.scanned.cons closing rfl).after steps.inline
      have second := (third.cons secondEnd rfl).after continues.inline
      have first := (second.cons firstEnd rfl).after starts.inline
      exact (first.cons opening rfl).cons own rfl
  | .declare head array closing => exact .declaration head array closing

/-- The scans of statements find the variables that they declare. -/
theorem AllSpelled.scanned {l : List Token} {ps : List Phrase} (spelled : AllSpelled l ps)
    : Scanned l ((leavesOf ps).filterMap Leaf.entry?) := by
  match spelled with
  | .nil => exact .nil
  | .cons first others =>
      rw [leavesOf, List.filterMap_append]
      exact first.scanned.append others.scanned

end

end Phrase

end SlotC
