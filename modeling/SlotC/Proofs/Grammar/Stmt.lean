import Mathlib.Data.List.TakeWhile
import SlotC.Proofs.Grammar.Precedence

/-! What the readers of statements read, one rule for each form of a statement. The parts of
a statement that hold no statement are read as the grammar spells them.
-/

namespace SlotC

/-- The expression that a term stands for, if there is one. -/
def Term.optional? (frame : Frame) : Option Term → Option (Option Expr)
  | none => some none
  | some e => do
    let e ← e.expr? frame
    return some e

theorem Term.optional?_some {frame : Frame} {a : Term} {e : Option Expr}
    : Term.optional? frame (some a) = some e ↔ ∃ e', a.expr? frame = some e' ∧ some e' = e := by
  simp [Term.optional?, Option.bind_eq_some_iff]

/-- The kinds of token that a statement other than an expression starts with. -/
def Kind.startsStmt : Kind → Bool
  | .returnWord | .forWord | .whileWord | .ifWord | .openBrace | .type _ => true
  | _ => false

namespace Grammar

variable {frame : Frame} {ts rest : List Token} {t : Token}

/-- An expression before a token that closes it. -/
theorem reads_expr_iff {e : Expr} (closes : t.kind.closes)
    : Reads (expr frame 0 ts) e (t :: rest)
      ↔ ∃ l term, ts = l ++ t :: rest ∧ Term.Spelled .assignment l term
          ∧ term.expr? frame = some e := by
  constructor
  · intro read
    obtain ⟨l, term, same, spelled, value, -⟩ := expr_spelled ts Layer.cuts_zero read
    exact ⟨l, term, same, spelled, value⟩
  · rintro ⟨l, term, rfl, spelled, value⟩
    exact reads_of_spelled spelled value closes

/-- An expression and a semicolon. -/
theorem reads_closedExpr {e : Expr}
    : Reads (closedExpr frame ts) e rest
      ↔ ∃ l term last, ts = l ++ last :: rest ∧ Term.Spelled .assignment l term
          ∧ last.kind = .semicolon ∧ term.expr? frame = some e := by
  simp only [closedExpr, reads_bind, reads_pure, reads_expect, exists_prop]
  constructor
  · rintro ⟨_, _, read, last, _, ⟨rfl, closing⟩, rfl, rfl⟩
    obtain ⟨l, term, same, spelled, value⟩ :=
      (reads_expr_iff (by simp [closing, Kind.closes])).mp read
    exact ⟨l, term, last, same, spelled, closing, value⟩
  · rintro ⟨l, term, last, rfl, spelled, closing, value⟩
    have closes : last.kind.closes := by simp [closing, Kind.closes]
    exact ⟨e, _, reads_of_spelled spelled value closes, last, rest, ⟨rfl, closing⟩, rfl, rfl⟩

/-- An expression in parentheses. -/
theorem reads_condition {e : Expr}
    : Reads (condition frame ts) e rest
      ↔ ∃ l term, ts = l ++ rest ∧ Term.Grouped l term ∧ term.expr? frame = some e := by
  simp only [condition, reads_bind, reads_pure, reads_expect, exists_prop]
  constructor
  · rintro ⟨left, r, ⟨rfl, opening⟩, _, _, read, last, _, ⟨rfl, closing⟩, rfl, rfl⟩
    obtain ⟨l, term, rfl, spelled, value⟩ :=
      (reads_expr_iff (by simp [closing, Kind.closes])).mp read
    exact ⟨left :: (l ++ [last]), term, by simp, .mk opening spelled closing, value⟩
  · rintro ⟨_, term, rfl, @⟨l, _, left, last, opening, spelled, closing⟩, value⟩
    have closes : last.kind.closes := by simp [closing, Kind.closes]
    exact ⟨left, l ++ last :: rest, ⟨by simp, opening⟩, e, _,
      reads_of_spelled spelled value closes, last, rest, ⟨rfl, closing⟩, rfl, rfl⟩

/-- An expression that may be absent. -/
theorem reads_optionalExpr {e : Option Expr} {close : Kind} (closes : close.closes)
    : Reads (optionalExpr frame close ts) e rest
      ↔ ∃ l term last, ts = l ++ last :: rest ∧ Term.Optional l term ∧ last.kind = close
          ∧ Term.optional? frame term = some e := by
  cases ts with
  | nil => simp [optionalExpr]
  | cons t ts =>
      rw [optionalExpr]
      split
      · next own =>
          rw [reads_ok]
          constructor
          · rintro ⟨rfl, rfl⟩
            exact ⟨[], none, t, rfl, .none, own, rfl⟩
          · rintro ⟨l, term, last, same, spelled, closing, value⟩
            cases spelled with
            | none =>
                cases same
                cases value
                exact ⟨rfl, rfl⟩
            | some spelled =>
                obtain ⟨first, r, rfl, starts⟩ := spelled_head spelled
                cases same
                rw [own] at starts
                cases close <;> simp_all [Kind.closes, Kind.startsTerm]
      · next other =>
          simp only [reads_bind, reads_pure, reads_expect, exists_prop]
          constructor
          · rintro ⟨e', _, read, last, _, ⟨rfl, closing⟩, rfl, rfl⟩
            obtain ⟨l, term, same, spelled, value⟩ := (reads_expr_iff (closing ▸ closes)).mp read
            exact ⟨l, some term, last, same, .some spelled, closing,
              Term.optional?_some.mpr ⟨e', value, rfl⟩⟩
          · rintro ⟨l, term, last, same, spelled, closing, value⟩
            cases spelled with
            | none =>
                cases same
                exact absurd closing other
            | some spelled =>
                obtain ⟨e', inner, rfl⟩ := Term.optional?_some.mp value
                rw [same]
                exact ⟨e', _, reads_of_spelled spelled inner (closing ▸ closes), last, rest,
                  ⟨rfl, closing⟩, rfl, rfl⟩

/-- The head of a loop with three parts. -/
theorem reads_loopHead {head : LoopHead}
    : Reads (loopHead frame ts) head rest
      ↔ ∃ left a first b second c right start condition step,
          ts = left :: (a ++ first :: (b ++ second :: (c ++ right :: rest)))
          ∧ left.kind = .openParen
          ∧ Term.Optional a start ∧ first.kind = .semicolon
          ∧ Term.Optional b condition ∧ second.kind = .semicolon
          ∧ Term.Optional c step ∧ right.kind = .closeParen
          ∧ Term.optional? frame start = some head.start
          ∧ Term.optional? frame condition = some head.condition
          ∧ Term.optional? frame step = some head.step := by
  simp only [loopHead, reads_bind, reads_pure, reads_expect, exists_prop,
    reads_optionalExpr (show Kind.closes .semicolon from rfl),
    reads_optionalExpr (show Kind.closes .closeParen from rfl)]
  constructor
  · rintro ⟨left, _, ⟨rfl, opening⟩, _, _, ⟨a, start, first, rfl, spelled₁, own₁, value₁⟩, _, _,
      ⟨b, condition, second, rfl, spelled₂, own₂, value₂⟩, _, _,
      ⟨c, step, right, rfl, spelled₃, own₃, value₃⟩, rfl, rfl⟩
    exact ⟨left, a, first, b, second, c, right, start, condition, step, rfl, opening, spelled₁,
      own₁, spelled₂, own₂, spelled₃, own₃, value₁, value₂, value₃⟩
  · rintro ⟨left, a, first, b, second, c, right, start, condition, step, rfl, opening, spelled₁,
      own₁, spelled₂, own₂, spelled₃, own₃, value₁, value₂, value₃⟩
    exact ⟨left, _, ⟨rfl, opening⟩, _, _, ⟨a, start, first, rfl, spelled₁, own₁, value₁⟩, _, _,
      ⟨b, condition, second, rfl, spelled₂, own₂, value₂⟩, _, _,
      ⟨c, step, right, rfl, spelled₃, own₃, value₃⟩, rfl, rfl⟩

-----------------------------------------------------------------------------------------
-- Declarations
-----------------------------------------------------------------------------------------

/-- Stars are counted and skipped up to the name after them. -/
theorem skipStars_stars (rest : List Token) {stars : List Token} {name : Token}
    (all : ∀ star ∈ stars, star.kind = .star) (named : name.kind = .identifier)
    : Declarator.skipStars (stars ++ name :: rest) = name :: rest
      ∧ Declarator.countStars (stars ++ name :: rest) = stars.length := by
  have stars' : ∀ star ∈ stars, decide (star.kind = .star) = true := by simpa using all
  constructor
  · rw [Declarator.skipStars, List.dropWhile_append_of_pos stars']
    simp [named]
  · rw [Declarator.countStars, List.takeWhile_append_of_pos stars']
    simp [named]

/-- A type, stars and a name are read as they are spelled. -/
theorem reads_param {param : Param}
    : Reads (typedName ts) param rest ↔ ∃ l, ts = l ++ rest ∧ Param.Spelled l param := by
  rw [reads_typedName]
  constructor
  · rintro ⟨t, after, rfl, own, pointers, skipped, named⟩
    have all : ∀ star ∈ after.takeWhile (fun t => t.kind = .star), star.kind = .star := by
      intro star member
      simpa using List.mem_takeWhile_imp member
    have parts : after = after.takeWhile (fun t => t.kind = .star) ++ param.name :: rest := by
      rw [← skipped]
      exact (List.takeWhile_append_dropWhile).symm
    obtain ⟨scalar, _, name⟩ := param
    cases pointers
    refine ⟨t :: (after.takeWhile (fun t => t.kind = .star) ++ [name]), ?_, .mk own all named⟩
    rw [List.cons_append, List.append_assoc, List.singleton_append, ← parts]
  · rintro ⟨_, rfl, @⟨t, name, scalar, stars, own, all, named⟩⟩
    obtain ⟨skipped, count⟩ := skipStars_stars rest all named
    exact ⟨t, stars ++ name :: rest, by simp, own, count.symm, skipped, named⟩

/-- The length of an array, which is absent only where no bracket follows. -/
theorem reads_optionalLength {length : Option Token}
    : Reads (optionalLength ts) length rest
      ↔ ∃ l, ts = l ++ rest ∧ ArrayLength l length
          ∧ (length = none → ∀ t ∈ rest.head?, t.kind ≠ .openBracket) := by
  cases ts with
  | nil =>
      rw [optionalLength, reads_ok]
      constructor
      · rintro ⟨rfl, rfl⟩
        exact ⟨[], rfl, .none, by simp⟩
      · rintro ⟨l, same, spelled, -⟩
        obtain ⟨rfl, rfl⟩ := List.append_eq_nil_iff.mp same.symm
        cases spelled
        exact ⟨rfl, rfl⟩
  | cons t ts =>
      rw [optionalLength]
      split
      · next own =>
          simp only [reads_bind, reads_pure, reads_number, reads_expect, exists_prop]
          constructor
          · rintro ⟨number, _, ⟨rfl, kind⟩, right, _, ⟨rfl, closing⟩, rfl, rfl⟩
            exact ⟨[t, number, right], rfl, .some own kind closing, by simp⟩
          · rintro ⟨_, same, spelled, alone⟩
            cases spelled with
            | none =>
                cases same
                exact absurd own (alone rfl t rfl)
            | some opening kind closing =>
                cases same
                exact ⟨_, _, ⟨rfl, kind⟩, _, _, ⟨rfl, closing⟩, rfl, rfl⟩
      · next other =>
          rw [reads_ok]
          constructor
          · rintro ⟨rfl, rfl⟩
            exact ⟨[], rfl, .none, by simp [other]⟩
          · rintro ⟨_, same, spelled, -⟩
            cases spelled with
            | none => exact ⟨rfl, same.symm⟩
            | some opening =>
                cases same
                exact absurd opening other

theorem resolve_eq_ok {name : Token} {id : Nat}
    : frame.resolve name = .ok id ↔ frame.lookup? name.text = some id := by
  unfold Frame.resolve
  cases frame.lookup? name.text with
  | none => simp
  | some id => simp

/-- A declaration names a variable of the frame. -/
theorem reads_declaration {id : Nat}
    : Reads (declaration frame ts) id rest
      ↔ ∃ h param n length last, ts = h ++ (n ++ last :: rest) ∧ Param.Spelled h param
          ∧ ArrayLength n length ∧ last.kind = .semicolon
          ∧ frame.lookup? param.name.text = some id := by
  simp only [declaration, reads_bind]
  constructor
  · rintro ⟨param, r₁, first, length, r₂, second, last, r₃, third, checked⟩
    obtain ⟨id', found, same⟩ := reads_bind_check.mp checked
    obtain ⟨rfl, rfl⟩ := reads_pure.mp same
    obtain ⟨h, rfl, head⟩ := reads_param.mp first
    obtain ⟨n, rfl, array, -⟩ := reads_optionalLength.mp second
    obtain ⟨rfl, closing⟩ := reads_expect.mp third
    exact ⟨h, param, n, length, last, rfl, head, array, closing,
      resolve_eq_ok.mp (mapError_eq_ok.mp found)⟩
  · rintro ⟨h, param, n, length, last, rfl, head, array, closing, found⟩
    have alone : length = none → ∀ t ∈ (last :: rest).head?, t.kind ≠ .openBracket := by
      simp [closing]
    refine ⟨param, _, reads_param.mpr ⟨h, rfl, head⟩, length, _,
      reads_optionalLength.mpr ⟨n, rfl, array, alone⟩, last, rest,
      reads_expect.mpr ⟨rfl, closing⟩, ?_⟩
    exact reads_bind_check.mpr ⟨id, mapError_eq_ok.mpr (resolve_eq_ok.mpr found),
      reads_pure.mpr ⟨rfl, rfl⟩⟩

-----------------------------------------------------------------------------------------
-- Statements
-----------------------------------------------------------------------------------------

variable {s : Stmt}

theorem reads_stmt_ret (own : t.kind = .returnWord)
    : Reads (stmt frame (t :: ts)) s rest
      ↔ ∃ e, Reads (closedExpr frame ts) e rest ∧ .ret e = s := by
  rw [stmt.eq_def]
  simp only [own, reads_bind, reads_pure, exists_prop]
  constructor
  · rintro ⟨e, _, read, rfl, rfl⟩
    exact ⟨e, read, rfl⟩
  · rintro ⟨e, read, rfl⟩
    exact ⟨e, rest, read, rfl, rfl⟩

theorem reads_stmt_for (own : t.kind = .forWord)
    : Reads (stmt frame (t :: ts)) s rest
      ↔ ∃ head r body, Reads (loopHead frame ts) head r ∧ Reads (stmt frame r) body rest
          ∧ .forLoop head.start head.condition head.step body = s := by
  rw [stmt.eq_def]
  simp only [own, reads_bind, reads_pure, exists_prop]
  constructor
  · rintro ⟨head, r, first, body, _, second, rfl, rfl⟩
    exact ⟨head, r, body, first, second, rfl⟩
  · rintro ⟨head, r, body, first, second, rfl⟩
    exact ⟨head, r, first, body, rest, second, rfl, rfl⟩

theorem reads_stmt_while (own : t.kind = .whileWord)
    : Reads (stmt frame (t :: ts)) s rest
      ↔ ∃ e r body, Reads (condition frame ts) e r ∧ Reads (stmt frame r) body rest
          ∧ .whileLoop e body = s := by
  rw [stmt.eq_def]
  simp only [own, reads_bind, reads_pure, exists_prop]
  constructor
  · rintro ⟨e, r, first, body, _, second, rfl, rfl⟩
    exact ⟨e, r, body, first, second, rfl⟩
  · rintro ⟨e, r, body, first, second, rfl⟩
    exact ⟨e, r, first, body, rest, second, rfl, rfl⟩

theorem reads_stmt_if (own : t.kind = .ifWord)
    : Reads (stmt frame (t :: ts)) s rest
      ↔ ∃ e r yes r' no, Reads (condition frame ts) e r ∧ Reads (stmt frame r) yes r'
          ∧ Reads (alternative frame r') no rest ∧ .branch e yes no = s := by
  rw [stmt.eq_def]
  simp only [own, reads_bind, reads_pure, exists_prop]
  constructor
  · rintro ⟨e, r, first, yes, r', second, no, _, third, rfl, rfl⟩
    exact ⟨e, r, yes, r', no, first, second, third, rfl⟩
  · rintro ⟨e, r, yes, r', no, first, second, third, rfl⟩
    exact ⟨e, r, first, yes, r', second, no, rest, third, rfl, rfl⟩

theorem reads_stmt_block (own : t.kind = .openBrace)
    : Reads (stmt frame (t :: ts)) s rest
      ↔ ∃ body, Reads (items frame ts) body rest ∧ .block body = s := by
  rw [stmt.eq_def]
  simp only [own, reads_bind, reads_pure, exists_prop]
  constructor
  · rintro ⟨body, _, read, rfl, rfl⟩
    exact ⟨body, read, rfl⟩
  · rintro ⟨body, read, rfl⟩
    exact ⟨body, rest, read, rfl, rfl⟩

theorem reads_stmt_declare {scalar : Scalar} (own : t.kind = .type scalar)
    : Reads (stmt frame (t :: ts)) s rest
      ↔ ∃ id, Reads (declaration frame (t :: ts)) id rest ∧ .declare id = s := by
  rw [stmt.eq_def]
  simp only [own, reads_bind, reads_pure, exists_prop]
  constructor
  · rintro ⟨id, _, read, rfl, rfl⟩
    exact ⟨id, read, rfl⟩
  · rintro ⟨id, read, rfl⟩
    exact ⟨id, rest, read, rfl, rfl⟩

theorem reads_stmt_expr (other : t.kind.startsStmt = false)
    : Reads (stmt frame (t :: ts)) s rest
      ↔ ∃ e, Reads (closedExpr frame (t :: ts)) e rest ∧ .expr e = s := by
  rw [stmt.eq_def]
  simp only
  split
  iterate 6
    next own => simp [own, Kind.startsStmt] at other
  · simp only [reads_bind, reads_pure, exists_prop]
    constructor
    · rintro ⟨e, _, read, rfl, rfl⟩
      exact ⟨e, read, rfl⟩
    · rintro ⟨e, read, rfl⟩
      exact ⟨e, rest, read, rfl, rfl⟩

/-- The other branch is there if an `else` follows. -/
theorem reads_alternative {no : Option Stmt}
    : Reads (alternative frame ts) no rest
      ↔ (∃ t r s, ts = t :: r ∧ t.kind = .elseWord ∧ Reads (stmt frame r) s rest ∧ no = some s)
        ∨ ((∀ t ∈ ts.head?, t.kind ≠ .elseWord) ∧ no = none ∧ rest = ts) := by
  cases ts with
  | nil =>
      rw [alternative]
      simp
  | cons t ts =>
      rw [alternative]
      split
      · next own =>
          simp only [reads_bind, reads_pure, exists_prop]
          constructor
          · rintro ⟨s, _, read, rfl, rfl⟩
            exact .inl ⟨t, ts, s, rfl, own, read, rfl⟩
          · rintro (⟨_, _, s, same, -, read, rfl⟩ | ⟨none, -, -⟩)
            · cases same
              exact ⟨s, rest, read, rfl, rfl⟩
            · exact absurd own (none t rfl)
      · next other =>
          simp [other]

/-- The statements of a block end at the brace. -/
theorem reads_items {body : List Stmt}
    : Reads (items frame ts) body rest
      ↔ (∃ t, ts = t :: rest ∧ t.kind = .closeBrace ∧ body = [])
        ∨ ((∀ t ∈ ts.head?, t.kind ≠ .closeBrace)
          ∧ ∃ s r more, Reads (stmt frame ts) s r ∧ Reads (items frame r) more rest
            ∧ body = s :: more) := by
  cases ts with
  | nil =>
      rw [items]
      simp [stmt]
  | cons t ts =>
      rw [items]
      split
      · next own =>
          simp [own, and_comm, eq_comm]
      · next other =>
          simp only [reads_bind, reads_pure, exists_prop]
          constructor
          · rintro ⟨s, r, first, more, _, second, rfl, rfl⟩
            exact .inr ⟨by simp [other], s, r, more, first, second, rfl⟩
          · rintro (⟨_, same, own, -⟩ | ⟨-, s, r, more, first, second, rfl⟩)
            · cases same
              exact absurd own other
            · exact ⟨s, r, first, more, rest, second, rfl, rfl⟩

theorem reads_block {body : List Stmt}
    : Reads (block frame ts) body rest
      ↔ ∃ t r, ts = t :: r ∧ t.kind = .openBrace ∧ Reads (items frame r) body rest := by
  simp only [block, reads_bind, reads_pure, reads_expect, exists_prop]
  constructor
  · rintro ⟨t, r, ⟨rfl, own⟩, _, _, read, rfl, rfl⟩
    exact ⟨t, r, rfl, own, read⟩
  · rintro ⟨t, r, rfl, own, read⟩
    exact ⟨t, r, ⟨rfl, own⟩, body, rest, read, rfl, rfl⟩

end Grammar

end SlotC
