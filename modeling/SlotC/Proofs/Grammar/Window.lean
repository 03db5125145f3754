import SlotC.Proofs.Grammar.Scan

/-! The tokens of a body, from its opening brace up to the one that closes it. Braces alone tell
them: they are the shortest part of the tokens, from the first one on, that has as many closing
braces as opening ones. A loop with one counter finds them, and the counter does not fall below
zero.
-/

namespace SlotC

/-- The number of open blocks after a token of the kind. -/
def Kind.depthAfter : Kind → Nat → Nat
  | .openBrace, depth => depth + 1
  | .closeBrace, depth => depth - 1
  | _, depth => depth

-----------------------------------------------------------------------------------------
-- Counts of braces
-----------------------------------------------------------------------------------------

namespace Token

/-- The number of opening braces. -/
def opened (ts : List Token) : Nat :=
  ts.countP fun t => t.kind = .openBrace

/-- The number of closing braces. -/
def closed (ts : List Token) : Nat :=
  ts.countP fun t => t.kind = .closeBrace

/-- What a token does to the number of open blocks is what it does to the counts. -/
theorem counts_cons (t : Token) (ts : List Token) (depth : Nat)
    : closed ts + (opened (t :: ts) + (depth + 1))
      = closed (t :: ts) + (opened ts + t.kind.depthAfter (depth + 1)) := by
  obtain ⟨kind, text, value, pos⟩ := t
  cases kind <;> simp [opened, closed, Kind.depthAfter] <;> omega

/-- The tokens close `depth` blocks, the outermost of them with the last token. -/
inductive Closing : Nat → List Token → Prop where
  | done : Closing 0 []
  | cons {depth : Nat} {t : Token} {ts : List Token}
      (more : Closing (t.kind.depthAfter (depth + 1)) ts)
      : Closing (depth + 1) (t :: ts)

section

variable {depth : Nat} {t : Token} {ts part : List Token}

theorem closing_zero : Closing 0 ts ↔ ts = [] := by
  constructor
  · intro closing
    cases closing
    rfl
  · rintro rfl
    exact .done

theorem closing_cons
    : Closing (depth + 1) (t :: ts) ↔ Closing (t.kind.depthAfter (depth + 1)) ts := by
  constructor
  · intro closing
    cases closing with
    | cons more => exact more
  · exact .cons

theorem Closing.counts (closing : Closing depth ts) : closed ts = opened ts + depth := by
  induction closing with
  | done => rfl
  | @cons depth t ts _ ih =>
      have step := counts_cons t ts depth
      omega

/-- Before the last token some block is still open. -/
theorem Closing.counts_lt (closing : Closing depth ts) (start : part <+: ts) (proper : part ≠ ts)
    : closed part < opened part + depth := by
  induction closing generalizing part with
  | done => exact absurd (List.prefix_nil.mp start) proper
  | @cons depth t ts _ ih =>
      rcases List.prefix_cons_iff.mp start with rfl | ⟨part, rfl, within⟩
      · exact Nat.zero_lt_succ _
      · have inner := ih within fun same => proper (congrArg (t :: ·) same)
        have step := counts_cons t part depth
        omega

/-- Counts that meet for the first time at the last token make the tokens close their blocks. -/
theorem closing_of_counts (even : closed ts = opened ts + depth)
    (first : ∀ part, part <+: ts → part ≠ ts → closed part ≠ opened part + depth)
    : Closing depth ts := by
  induction ts generalizing depth with
  | nil =>
      obtain rfl : depth = 0 := by simpa [closed, opened, eq_comm] using even
      exact .done
  | cons t ts ih =>
      have unmet : 0 ≠ 0 + depth :=
        first [] (List.nil_prefix) (List.cons_ne_nil t ts).symm
      obtain ⟨depth, rfl⟩ : ∃ less, depth = less + 1 := ⟨depth - 1, by omega⟩
      refine .cons (ih ?_ fun part start proper => ?_)
      · have step := counts_cons t ts depth
        omega
      · have inner := first (t :: part) (List.cons_prefix_cons.mpr ⟨rfl, start⟩)
          fun same => proper (List.cons.inj same).2
        have step := counts_cons t part depth
        omega

end

/-- The tokens are a block as far as braces tell: they start with an opening brace and have as
many of one sort as of the other, and no shorter part of them from the first one on has.
-/
structure Enclosed (ts : List Token) : Prop where
  starts : ts.head?.map Token.kind = some .openBrace
  even : opened ts = closed ts
  shortest : ∀ part, part <+: ts → part ≠ [] → part ≠ ts → opened part ≠ closed part

/-- What follows the opening brace closes one block. -/
theorem enclosed_cons {t : Token} {ts : List Token}
    : Enclosed (t :: ts) ↔ t.kind = .openBrace ∧ Closing 1 ts := by
  have counts (part : List Token) (own : t.kind = .openBrace)
      : opened (t :: part) = opened part + 1 ∧ closed (t :: part) = closed part := by
    simp [opened, closed, own]
  constructor
  · rintro ⟨starts, even, shortest⟩
    have own : t.kind = .openBrace := Option.some.inj starts
    refine ⟨own, closing_of_counts ?_ fun part start proper same => ?_⟩
    · have all := counts ts own
      omega
    · have inner := counts part own
      refine shortest (t :: part) (List.cons_prefix_cons.mpr ⟨rfl, start⟩) (List.cons_ne_nil t part)
        (fun whole => proper (List.cons.inj whole).2) ?_
      omega
  · rintro ⟨own, closing⟩
    refine ⟨congrArg some own, ?_, fun part start nonempty proper same => ?_⟩
    · have all := counts ts own
      have even := closing.counts
      omega
    · rcases List.prefix_cons_iff.mp start with rfl | ⟨part, rfl, within⟩
      · exact nonempty rfl
      · have inner := counts part own
        have below := closing.counts_lt within fun whole => proper (congrArg (t :: ·) whole)
        omega

end Token

-----------------------------------------------------------------------------------------
-- The search for the closing brace
-----------------------------------------------------------------------------------------

namespace Grammar

open Token (Closing Enclosed closing_cons closing_zero enclosed_cons)

variable {inner inner' : Nat} {t : Token} {ts window : List Token}

/-- The search ends at the token with which no block is open any more. -/
theorem untilClosed_done (done : t.kind.depthAfter (inner + 1) = 0)
    : untilClosed inner (t :: ts) = some [t] := by
  obtain ⟨kind, text, value, pos⟩ := t
  cases kind with
  | closeBrace =>
      obtain rfl : inner = 0 := done
      rfl
  | _ => cases done

/-- It goes on with the number of blocks that are open after a token. -/
theorem untilClosed_next (next : t.kind.depthAfter (inner + 1) = inner' + 1)
    : untilClosed inner (t :: ts) = (untilClosed inner' ts).map (t :: ·) := by
  obtain ⟨kind, text, value, pos⟩ := t
  cases kind with
  | closeBrace =>
      obtain rfl : inner = inner' + 1 := next
      rfl
  | _ =>
      cases next
      rw [untilClosed.eq_def]

/-- What the search finds are the first tokens that close all open blocks. -/
theorem untilClosed_eq_some
    : untilClosed inner ts = some window ↔ window <+: ts ∧ Closing (inner + 1) window := by
  induction ts generalizing inner window with
  | nil =>
      constructor
      · intro found
        cases found
      · rintro ⟨start, closing⟩
        cases List.prefix_nil.mp start
        cases closing
  | cons t ts ih =>
      have parts : (window <+: t :: ts ∧ Closing (inner + 1) window)
          ↔ ∃ rest, window = t :: rest ∧ rest <+: ts
              ∧ Closing (t.kind.depthAfter (inner + 1)) rest := by
        rw [List.prefix_cons_iff]
        constructor
        · rintro ⟨rfl | ⟨rest, rfl, start⟩, closing⟩
          · cases closing
          · exact ⟨rest, rfl, start, closing_cons.mp closing⟩
        · rintro ⟨rest, rfl, start, closing⟩
          exact ⟨.inr ⟨rest, rfl, start⟩, closing_cons.mpr closing⟩
      rw [parts]
      cases next : t.kind.depthAfter (inner + 1) with
      | zero =>
          rw [untilClosed_done next]
          constructor
          · intro found
            cases found
            exact ⟨[], rfl, List.nil_prefix, .done⟩
          · rintro ⟨rest, rfl, -, closing⟩
            rw [closing_zero.mp closing]
      | succ inner' =>
          rw [untilClosed_next next, Option.map_eq_some_iff]
          simp only [ih]
          constructor
          · rintro ⟨rest, ⟨start, closing⟩, rfl⟩
            exact ⟨rest, rfl, start, closing⟩
          · rintro ⟨rest, rfl, start, closing⟩
            exact ⟨rest, ⟨start, closing⟩, rfl⟩

/-- The window is the first part of the tokens that is enclosed. -/
theorem braceWindow_eq_ok : braceWindow ts = .ok window ↔ window <+: ts ∧ Enclosed window := by
  cases ts with
  | nil =>
      constructor
      · intro found
        cases found
      · rintro ⟨start, enclosed⟩
        cases List.prefix_nil.mp start
        cases enclosed.starts
  | cons t ts =>
      have parts : (window <+: t :: ts ∧ Enclosed window)
          ↔ t.kind = .openBrace ∧ ∃ rest, untilClosed 0 ts = some rest ∧ window = t :: rest := by
        simp only [untilClosed_eq_some]
        rw [List.prefix_cons_iff]
        constructor
        · rintro ⟨rfl | ⟨rest, rfl, start⟩, enclosed⟩
          · cases enclosed.starts
          · obtain ⟨own, closing⟩ := enclosed_cons.mp enclosed
            exact ⟨own, rest, ⟨start, closing⟩, rfl⟩
        · rintro ⟨own, rest, ⟨start, closing⟩, rfl⟩
          exact ⟨.inr ⟨rest, rfl, start⟩, enclosed_cons.mpr ⟨own, closing⟩⟩
      rw [parts, braceWindow]
      split
      · next own =>
          split
          · next rest found => simp [own, found, eq_comm]
          · next none => simp [none]
      · next other => simp [other]

-----------------------------------------------------------------------------------------
-- One counter
-----------------------------------------------------------------------------------------

/-- How a count of open braces ends: after so many tokens no brace is open, or some are open to
the end, or one more is closed than was open.
-/
inductive Tally where
  | closed (length : Nat)
  | unclosed
  | underflow
deriving DecidableEq, Repr

/-- Counts the open braces, `depth` of them after `seen` tokens, until none is open. -/
def tally (depth seen : Nat) : List Token → Tally
  | [] => .unclosed
  | t :: ts =>
    match t.kind with
    | .openBrace => tally (depth + 1) (seen + 1) ts
    | .closeBrace =>
      if depth = 0 then .underflow
      else if depth - 1 = 0 then .closed (seen + 1)
      else tally (depth - 1) (seen + 1) ts
    | _ => tally depth (seen + 1) ts

/-- The window that the count of open braces finds; none, whatever the outcome, if the count falls
below zero.
-/
def tallyWindow : List Token → Option (Except Failure (List Token))
  | [] => some (.error .ranOut)
  | t :: ts =>
    if t.kind = .openBrace then
      match tally 0 0 (t :: ts) with
      | .closed length => some (.ok ((t :: ts).take length))
      | .unclosed => some (.error .ranOut)
      | .underflow => none
    else some (.error (.reject (.expected .openBrace t) t))

theorem tally_done {seen : Nat} (done : t.kind.depthAfter (inner + 1) = 0)
    : tally (inner + 1) seen (t :: ts) = .closed (seen + 1) := by
  obtain ⟨kind, text, value, pos⟩ := t
  cases kind with
  | closeBrace =>
      obtain rfl : inner = 0 := done
      rfl
  | _ => cases done

theorem tally_next {seen : Nat} (next : t.kind.depthAfter (inner + 1) = inner' + 1)
    : tally (inner + 1) seen (t :: ts) = tally (inner' + 1) (seen + 1) ts := by
  obtain ⟨kind, text, value, pos⟩ := t
  cases kind with
  | closeBrace =>
      obtain rfl : inner = inner' + 1 := next
      rfl
  | _ =>
      cases next
      rfl

/-- While a block is open the count ends where the search does. -/
theorem tally_eq (inner seen : Nat) (ts : List Token)
    : tally (inner + 1) seen ts
      = ((untilClosed inner ts).map fun window => Tally.closed (seen + window.length)).getD
          .unclosed := by
  induction ts generalizing inner seen with
  | nil => rfl
  | cons t ts ih =>
      cases next : t.kind.depthAfter (inner + 1) with
      | zero =>
          rw [tally_done next, untilClosed_done next]
          rfl
      | succ inner' =>
          rw [tally_next next, untilClosed_next next, ih, Option.map_map]
          congr 2
          funext window
          simp only [Function.comp_apply, List.length_cons]
          congr 1
          omega

/-- The count never falls below zero, and the window that it finds is the one that is searched.
-/
theorem tallyWindow_eq (ts : List Token) : tallyWindow ts = some (braceWindow ts) := by
  cases ts with
  | nil => rfl
  | cons t ts =>
      rw [tallyWindow, braceWindow]
      split
      · next own =>
          have first : tally 0 0 (t :: ts) = tally 1 1 ts := by rw [tally, own]
          rw [first, tally_eq]
          cases found : untilClosed 0 ts with
          | none => rfl
          | some window =>
              obtain ⟨⟨after, rfl⟩, -⟩ := untilClosed_eq_some.mp found
              simp [Nat.add_comm 1]
      · rfl

end Grammar

end SlotC
