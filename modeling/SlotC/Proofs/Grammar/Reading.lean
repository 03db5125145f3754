import SlotC.Grammar.Program
import SlotC.Proofs.Frame.Layout

/-! What readers accept. A reader is described by the values that it reads and the tokens
that it leaves, without the bound on their number.
-/

namespace SlotC

/-- The tokens end at the byte: behind the text of the last one, or at the start of the source text
if there are none.
-/
inductive Token.EndAt : List Token → Nat → Prop where
  | none : EndAt [] 0
  | last {ts : List Token} {t : Token} : EndAt (ts ++ [t]) (t.pos + t.text.utf8ByteSize)

/-- Readers that run out of tokens stop where the tokens end. -/
theorem Token.endAt_endOf (ts : List Token) : EndAt ts (endOf ts) := by
  rcases List.eq_nil_or_concat ts with rfl | ⟨before, t, rfl⟩
  · exact .none
  · have last : endOf (before ++ [t]) = t.pos + t.text.utf8ByteSize := by
      rw [endOf, List.getLast?_concat]
      rfl
    rw [List.concat_eq_append, last]
    exact .last

/-- The reader succeeds with the value and leaves the tokens. -/
def Reads {α : Type} {bound : Nat} (x : Reading α bound) (a : α) (rest : List Token) : Prop :=
  ∃ fewer, x = .ok ⟨a, rest, fewer⟩

section

variable {α β : Type} {bound bound' : Nat} {a a' : α} {b : β} {rest rest' : List Token}

@[simp] theorem reads_ok {fewer : rest'.length < bound}
    : Reads (.ok ⟨a', rest', fewer⟩) a rest ↔ a = a' ∧ rest = rest' := by
  constructor
  · rintro ⟨_, same⟩
    cases same
    exact ⟨rfl, rfl⟩
  · rintro ⟨rfl, rfl⟩
    exact ⟨fewer, rfl⟩

@[simp] theorem reads_pure {fewer : rest'.length < bound}
    : Reads (pure ⟨a', rest', fewer⟩) a rest ↔ a = a' ∧ rest = rest' :=
  reads_ok

@[simp] theorem not_reads_error {failure : Failure}
    : ¬ Reads (.error failure : Reading α bound) a rest := by
  rintro ⟨_, same⟩
  cases same

/-- A result under a weaker bound is the same result. -/
@[simp] theorem reads_within {p : Parsed α bound} {le : bound ≤ bound'}
    : Reads (pure (p.within le)) a rest ↔ a = p.value ∧ rest = p.rest :=
  reads_ok

/-- What a reader leaves is shorter than what it was given. -/
theorem Reads.fewer {x : Reading α bound} (read : Reads x a rest) : rest.length < bound :=
  read.1

/-- A reader reads one value. -/
theorem Reads.unique {x : Reading α bound} (first : Reads x a rest) (second : Reads x a' rest')
    : a = a' ∧ rest = rest' := by
  obtain ⟨_, rfl⟩ := first
  exact (reads_ok.mp second).imp Eq.symm Eq.symm

/-- One reader after another. -/
theorem reads_bind {x : Reading α bound} {k : Parsed α bound → Reading β bound'}
    : Reads (x >>= k) b rest
      ↔ ∃ a rest', ∃ read : Reads x a rest', Reads (k ⟨a, rest', read.fewer⟩) b rest := by
  cases x with
  | error failure =>
      constructor
      · rintro ⟨_, same⟩
        cases same
      · rintro ⟨_, _, ⟨_, same⟩, _⟩
        cases same
  | ok p =>
      constructor
      · intro read
        exact ⟨p.value, p.rest, ⟨p.fewer, rfl⟩, read⟩
      · rintro ⟨_, _, ⟨_, same⟩, read⟩
        cases same
        exact read

/-- A check before a reader. -/
theorem reads_bind_check {γ : Type} {x : Except Failure γ} {k : γ → Reading β bound'}
    : Reads (x >>= k) b rest ↔ ∃ c, x = .ok c ∧ Reads (k c) b rest := by
  cases x with
  | error failure =>
      constructor
      · rintro ⟨_, same⟩
        cases same
      · rintro ⟨_, same, _⟩
        cases same
  | ok c =>
      constructor
      · intro read
        exact ⟨c, rfl, read⟩
      · rintro ⟨_, same, read⟩
        cases same
        exact read

end

namespace Grammar

variable {ts rest : List Token} {t : Token}

/-- Reading one token that passes a test. -/
theorem reads_one (read : (ts : List Token) → Reading Token ts.length) (test : Token → Prop)
    [DecidablePred test] (failure : Token → Failure) (none : read [] = .error .ranOut)
    (some : ∀ t ts, read (t :: ts)
      = if test t then .ok ⟨t, ts, fewer_tail t ts⟩ else .error (failure t))
    : Reads (read ts) t rest ↔ ts = t :: rest ∧ test t := by
  cases ts with
  | nil => simp [none]
  | cons first ts =>
      rw [some]
      split
      · next passes =>
          simp only [reads_ok, List.cons.injEq]
          constructor
          · rintro ⟨rfl, rfl⟩
            exact ⟨⟨rfl, rfl⟩, passes⟩
          · rintro ⟨⟨rfl, rfl⟩, -⟩
            exact ⟨rfl, rfl⟩
      · next fails =>
          simp only [not_reads_error, List.cons.injEq, false_iff, not_and]
          rintro ⟨rfl, rfl⟩
          exact fails

theorem reads_expect {kind : Kind}
    : Reads (expect kind ts) t rest ↔ ts = t :: rest ∧ t.kind = kind :=
  reads_one (expect kind) (fun t => t.kind = kind) _ rfl fun _ _ => rfl

/-- After an element of a list there is a comma and more of the list, or the parenthesis. -/
theorem reads_listTail {α : Type} {r : List Token} {more : Reading (List α) r.length}
    {le : r.length ≤ (t :: r).length} {as : List α}
    : Reads (if t.kind = .comma then do
          let more ← more
          return more.within le
        else do
          let ⟨_, rest, fewer⟩ ← expect .closeParen (t :: r)
          return ⟨[], rest, fewer⟩) as rest
      ↔ (t.kind = .comma ∧ Reads more as rest) ∨ (t.kind = .closeParen ∧ as = [] ∧ rest = r) := by
  split
  · next comma =>
      simp only [reads_bind, reads_within, exists_prop]
      constructor
      · rintro ⟨_, _, read, rfl, rfl⟩
        exact .inl ⟨comma, read⟩
      · rintro (⟨-, read⟩ | ⟨closing, -⟩)
        · exact ⟨as, rest, read, rfl, rfl⟩
        · rw [comma] at closing
          cases closing
  · next other =>
      simp only [reads_bind, reads_pure, reads_expect, exists_prop]
      constructor
      · rintro ⟨last, _, ⟨same, closing⟩, rfl, rfl⟩
        cases same
        exact .inr ⟨closing, rfl, rfl⟩
      · rintro (⟨comma, -⟩ | ⟨closing, rfl, rfl⟩)
        · exact absurd comma other
        · exact ⟨t, rest, ⟨rfl, closing⟩, rfl, rfl⟩

theorem reads_identifier
    : Reads (identifier ts) t rest ↔ ts = t :: rest ∧ t.kind = .identifier :=
  reads_one identifier (fun t => t.kind = .identifier) _ rfl fun _ _ => rfl

theorem reads_number : Reads (number ts) t rest ↔ ts = t :: rest ∧ t.kind = .constant :=
  reads_one number (fun t => t.kind = .constant) _ rfl fun _ _ => rfl

theorem reads_typeName {scalar : Scalar}
    : Reads (typeName ts) scalar rest ↔ ∃ t, ts = t :: rest ∧ t.kind = .type scalar := by
  cases ts with
  | nil => simp [typeName]
  | cons first ts =>
      rw [typeName]
      split
      · next scalar' same =>
          rw [reads_ok]
          constructor
          · rintro ⟨rfl, rfl⟩
            exact ⟨first, rfl, same⟩
          · rintro ⟨_, list, own⟩
            cases list
            exact ⟨Kind.type.inj (own.symm.trans same), rfl⟩
      · next other =>
          simp only [not_reads_error, false_iff, not_exists, not_and]
          intro _ list own
          cases list
          exact other scalar own

/-- A type, stars and a name. -/
theorem reads_typedName {param : Param}
    : Reads (typedName ts) param rest
      ↔ ∃ t after, ts = t :: after ∧ t.kind = .type param.scalar
          ∧ param.pointers = Declarator.countStars after
          ∧ Declarator.skipStars after = param.name :: rest
          ∧ param.name.kind = .identifier := by
  simp only [typedName, reads_bind, reads_pure, exists_prop, reads_typeName, reads_identifier]
  constructor
  · rintro ⟨scalar, after, ⟨t, rfl, own⟩, name, _, ⟨list, kind⟩, rfl, rfl⟩
    exact ⟨t, after, rfl, own, rfl, list, kind⟩
  · rintro ⟨t, after, rfl, own, stars, list, kind⟩
    exact ⟨param.scalar, after, ⟨t, rfl, own⟩, param.name, rest, ⟨list, kind⟩, by rw [← stars], rfl⟩

end Grammar

end SlotC
