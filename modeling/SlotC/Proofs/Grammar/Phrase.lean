import SlotC.Proofs.Grammar.Stmt

/-! Reading statements against their grammar. What is read is spelled by the tokens that are
read. An `else` is read into the nearest statement that can take it, and every text can be
spelled with each `else` in that place, with the same expressions and declarations.
-/

namespace SlotC

namespace Phrase

mutual

/-- The statement that a phrase stands for, if its names are those of variables. -/
def stmt? (frame : Frame) : Phrase → Option Stmt
  | .expr e => do
    let e ← e.expr? frame
    return .expr e
  | .block body => do
    let body ← stmts? frame body
    return .block body
  | .branch condition whenTrue none => do
    let condition ← condition.expr? frame
    let whenTrue ← whenTrue.stmt? frame
    return .branch condition whenTrue none
  | .branch condition whenTrue (some whenFalse) => do
    let condition ← condition.expr? frame
    let whenTrue ← whenTrue.stmt? frame
    let whenFalse ← whenFalse.stmt? frame
    return .branch condition whenTrue (some whenFalse)
  | .whileLoop condition body => do
    let condition ← condition.expr? frame
    let body ← body.stmt? frame
    return .whileLoop condition body
  | .forLoop start condition step body => do
    let start ← Term.optional? frame start
    let condition ← Term.optional? frame condition
    let step ← Term.optional? frame step
    let body ← body.stmt? frame
    return .forLoop start condition step body
  | .ret e => do
    let e ← e.expr? frame
    return .ret e
  | .declare param _ => do
    let id ← frame.lookup? param.name.text
    return .declare id

/-- The statements that phrases stand for. -/
def stmts? (frame : Frame) : List Phrase → Option (List Stmt)
  | [] => some []
  | p :: ps => do
    let s ← p.stmt? frame
    let ss ← stmts? frame ps
    return s :: ss

end

section

variable {frame : Frame} {s : Stmt}

attribute [local simp] stmt? stmts? Option.bind_eq_some_iff

theorem stmt?_expr {e : Term}
    : (Phrase.expr e).stmt? frame = some s ↔ ∃ e', e.expr? frame = some e' ∧ .expr e' = s := by
  simp

theorem stmt?_ret {e : Term}
    : (Phrase.ret e).stmt? frame = some s ↔ ∃ e', e.expr? frame = some e' ∧ .ret e' = s := by
  simp

theorem stmt?_block {body : List Phrase}
    : (Phrase.block body).stmt? frame = some s
      ↔ ∃ body', stmts? frame body = some body' ∧ .block body' = s := by
  simp

theorem stmt?_branch {e : Term} {yes : Phrase}
    : (Phrase.branch e yes none).stmt? frame = some s
      ↔ ∃ e' yes', e.expr? frame = some e' ∧ yes.stmt? frame = some yes'
          ∧ .branch e' yes' none = s := by
  simp

theorem stmt?_branchElse {e : Term} {yes no : Phrase}
    : (Phrase.branch e yes (some no)).stmt? frame = some s
      ↔ ∃ e' yes' no', e.expr? frame = some e' ∧ yes.stmt? frame = some yes'
          ∧ no.stmt? frame = some no' ∧ .branch e' yes' (some no') = s := by
  simp

theorem stmt?_whileLoop {e : Term} {body : Phrase}
    : (Phrase.whileLoop e body).stmt? frame = some s
      ↔ ∃ e' body', e.expr? frame = some e' ∧ body.stmt? frame = some body'
          ∧ .whileLoop e' body' = s := by
  simp

theorem stmt?_forLoop {start condition step : Option Term} {body : Phrase}
    : (Phrase.forLoop start condition step body).stmt? frame = some s
      ↔ ∃ start' condition' step' body', Term.optional? frame start = some start'
          ∧ Term.optional? frame condition = some condition'
          ∧ Term.optional? frame step = some step' ∧ body.stmt? frame = some body'
          ∧ .forLoop start' condition' step' body' = s := by
  simp

theorem stmt?_declare {param : Param} {length : Option Token}
    : (Phrase.declare param length).stmt? frame = some s
      ↔ ∃ id, frame.lookup? param.name.text = some id ∧ .declare id = s := by
  simp

theorem stmts?_cons {p : Phrase} {ps : List Phrase} {ss : List Stmt}
    : stmts? frame (p :: ps) = some ss
      ↔ ∃ s ss', p.stmt? frame = some s ∧ stmts? frame ps = some ss' ∧ s :: ss' = ss := by
  simp

end

/-- Whether a statement ends in a conditional statement that could be given an `else`. -/
def endsOpen : Phrase → Bool
  | .branch _ _ none => true
  | .branch _ _ (some whenFalse) => whenFalse.endsOpen
  | .whileLoop _ body | .forLoop _ _ _ body => body.endsOpen
  | .expr _ | .block _ | .ret _ | .declare _ _ => false

mutual

/-- Every `else` belongs to the nearest conditional statement that it could belong to. -/
def Nearest : Phrase → Prop
  | .branch _ whenTrue none => whenTrue.Nearest
  | .branch _ whenTrue (some whenFalse) =>
    whenTrue.Nearest ∧ whenTrue.endsOpen = false ∧ whenFalse.Nearest
  | .whileLoop _ body | .forLoop _ _ _ body => body.Nearest
  | .block body => AllNearest body
  | .expr _ | .ret _ | .declare _ _ => True

/-- The same for statements one after the other. -/
def AllNearest : List Phrase → Prop
  | [] => True
  | p :: ps => p.Nearest ∧ AllNearest ps

end

end Phrase

namespace Grammar

variable {frame : Frame}

-----------------------------------------------------------------------------------------
-- What is read is spelled
-----------------------------------------------------------------------------------------

mutual

/-- What is read as a statement is spelled by the tokens that are read. -/
theorem stmt_spelled (ts : List Token) {rest : List Token} {s : Stmt}
    (read : Reads (stmt frame ts) s rest)
    : ∃ l p, ts = l ++ rest ∧ Phrase.Spelled l p ∧ p.stmt? frame = some s := by
  match ts, read with
  | [], read =>
      rw [stmt] at read
      exact absurd read not_reads_error
  | t :: ts, read =>
      by_cases starts : t.kind.startsStmt
      · cases own : t.kind with
        | returnWord =>
            obtain ⟨e, inner, rfl⟩ := (reads_stmt_ret own).mp read
            obtain ⟨l, term, last, rfl, spelled, closing, value⟩ := reads_closedExpr.mp inner
            exact ⟨t :: (l ++ [last]), .ret term, by simp, .ret own spelled closing,
              Phrase.stmt?_ret.mpr ⟨e, value, rfl⟩⟩
        | forWord =>
            obtain ⟨head, r, body, first, second, rfl⟩ := (reads_stmt_for own).mp read
            have fewer := first.fewer
            obtain ⟨left, a, semicolon, b, semicolon', c, right, start, condition, step, rfl,
              opening, spelled₁, own₁, spelled₂, own₂, spelled₃, own₃, value₁, value₂, value₃⟩ :=
              reads_loopHead.mp first
            obtain ⟨l, p, rfl, spelled, value⟩ := stmt_spelled r second
            exact ⟨_, _, by simp, .forLoop own opening spelled₁ own₁ spelled₂ own₂ spelled₃ own₃
              spelled, Phrase.stmt?_forLoop.mpr ⟨_, _, _, body, value₁, value₂, value₃, value, rfl⟩⟩
        | whileWord =>
            obtain ⟨e, r, body, first, second, rfl⟩ := (reads_stmt_while own).mp read
            have fewer := first.fewer
            obtain ⟨c, term, rfl, grouped, value⟩ := reads_condition.mp first
            obtain ⟨l, p, rfl, spelled, value'⟩ := stmt_spelled r second
            exact ⟨t :: (c ++ l), .whileLoop term p, by simp, .whileLoop own grouped spelled,
              Phrase.stmt?_whileLoop.mpr ⟨e, body, value, value', rfl⟩⟩
        | ifWord =>
            obtain ⟨e, r, yes, r', no, first, second, third, rfl⟩ := (reads_stmt_if own).mp read
            have fewer := first.fewer
            have fewer' := second.fewer
            obtain ⟨c, term, rfl, grouped, value⟩ := reads_condition.mp first
            obtain ⟨l, p, rfl, spelled, value'⟩ := stmt_spelled r second
            rcases reads_alternative.mp third with
              ⟨other, q, s, same, between, inner, rfl⟩ | ⟨-, rfl, rfl⟩
            · have shorter : q.length < r'.length := by simp [same]
              obtain ⟨l', p', rfl, spelled', value''⟩ := stmt_spelled q inner
              exact ⟨t :: (c ++ (l ++ other :: l')), .branch term p (some p'), by simp [same],
                .branchElse own grouped spelled between spelled',
                Phrase.stmt?_branchElse.mpr ⟨e, yes, s, value, value', value'', rfl⟩⟩
            · exact ⟨t :: (c ++ l), .branch term p none, by simp, .branch own grouped spelled,
                Phrase.stmt?_branch.mpr ⟨e, yes, value, value', rfl⟩⟩
        | openBrace =>
            obtain ⟨body, inner, rfl⟩ := (reads_stmt_block own).mp read
            obtain ⟨l, ps, last, rfl, spelled, closing, value⟩ := items_spelled ts inner
            exact ⟨t :: (l ++ [last]), .block ps, by simp, .block own spelled closing,
              Phrase.stmt?_block.mpr ⟨body, value, rfl⟩⟩
        | type scalar =>
            obtain ⟨id, inner, rfl⟩ := (reads_stmt_declare own).mp read
            obtain ⟨h, param, n, length, last, same, head, array, closing, found⟩ :=
              reads_declaration.mp inner
            exact ⟨h ++ (n ++ [last]), .declare param length, by simp [same],
              .declare head array closing, Phrase.stmt?_declare.mpr ⟨id, found, rfl⟩⟩
        | _ => simp [own, Kind.startsStmt] at starts
      · obtain ⟨e, inner, rfl⟩ := (reads_stmt_expr (by simpa using starts)).mp read
        obtain ⟨l, term, last, same, spelled, closing, value⟩ := reads_closedExpr.mp inner
        exact ⟨l ++ [last], .expr term, by simp [same], .expr spelled closing,
          Phrase.stmt?_expr.mpr ⟨e, value, rfl⟩⟩
termination_by 2 * ts.length
decreasing_by all_goals simp only [List.length_cons] at *; omega

/-- What is read as the statements of a block is spelled by the tokens up to the brace. -/
theorem items_spelled (ts : List Token) {rest : List Token} {body : List Stmt}
    (read : Reads (items frame ts) body rest)
    : ∃ l ps last, ts = l ++ last :: rest ∧ Phrase.AllSpelled l ps ∧ last.kind = .closeBrace
        ∧ Phrase.stmts? frame ps = some body := by
  rcases reads_items.mp read with ⟨last, rfl, closing, rfl⟩ | ⟨-, s, r, more, first, second, rfl⟩
  · exact ⟨[], [], last, rfl, .nil, closing, rfl⟩
  · have fewer := first.fewer
    obtain ⟨l, p, same, spelled, value⟩ := stmt_spelled ts first
    obtain ⟨l', ps, last, rfl, spelled', closing, values⟩ := items_spelled r second
    exact ⟨l ++ l', p :: ps, last, by simp [same], .cons spelled spelled', closing,
      Phrase.stmts?_cons.mpr ⟨s, more, value, values, rfl⟩⟩
termination_by 2 * ts.length + 1
decreasing_by all_goals omega

end

-----------------------------------------------------------------------------------------
-- What is spelled is read
-----------------------------------------------------------------------------------------

/-- The next token does not give a conditional statement its other branch. -/
def NoElse (ts : List Token) : Prop :=
  ∀ t ∈ ts.head?, t.kind ≠ .elseWord

/-- No statement starts like the rest of another one. -/
theorem phrase_head {l : List Token} {p : Phrase} (spelled : Phrase.Spelled l p)
    : ∃ t r, l = t :: r ∧ (t.kind.startsStmt ∨ t.kind.startsTerm) := by
  cases spelled with
  | expr value =>
      obtain ⟨t, r, rfl, own⟩ := spelled_head value
      exact ⟨t, _, rfl, .inr own⟩
  | block own | branch own | branchElse own | whileLoop own | forLoop own | ret own =>
      exact ⟨_, _, rfl, .inl (by simp [own, Kind.startsStmt])⟩
  | declare head =>
      obtain ⟨own, -, -⟩ := head
      exact ⟨_, _, rfl, .inl (by simp [own, Kind.startsStmt])⟩

/-- No `else` stands between the statements of a block. -/
theorem noElse_of_spelled {l rest : List Token} {ps : List Phrase} {last : Token}
    (spelled : Phrase.AllSpelled l ps) (closing : last.kind = .closeBrace)
    : NoElse (l ++ last :: rest) := by
  intro t head same
  cases spelled with
  | nil =>
      cases head
      rw [closing] at same
      cases same
  | cons first =>
      obtain ⟨t, r, rfl, own⟩ := phrase_head first
      cases head
      simp [same, Kind.startsStmt, Kind.startsTerm] at own

mutual

/-- A statement that is spelled is read, if no `else` follows that it could take. -/
theorem reads_stmt_of_spelled {l rest : List Token} {p : Phrase} {s : Stmt}
    (spelled : Phrase.Spelled l p) (nearest : p.Nearest) (value : p.stmt? frame = some s)
    (free : p.endsOpen → NoElse rest)
    : Reads (stmt frame (l ++ rest)) s rest := by
  match spelled with
  | @Phrase.Spelled.expr ts term last inner closing =>
      obtain ⟨e, value', rfl⟩ := Phrase.stmt?_expr.mp value
      have read : Reads (closedExpr frame (ts ++ last :: rest)) e rest :=
        reads_closedExpr.mpr ⟨ts, term, last, rfl, inner, closing, value'⟩
      obtain ⟨t, r, rfl, own⟩ := spelled_head inner
      have other : t.kind.startsStmt = false := by
        cases kind : t.kind <;> simp_all [Kind.startsTerm, Kind.startsStmt]
      rw [List.append_assoc]
      exact (reads_stmt_expr other).mpr ⟨e, read, rfl⟩
  | @Phrase.Spelled.block ts ps left right own body closing =>
      obtain ⟨ss, values, rfl⟩ := Phrase.stmt?_block.mp value
      have read : Reads (items frame (ts ++ right :: rest)) ss rest :=
        reads_items_of_spelled body nearest values closing
      rw [List.cons_append, List.append_assoc]
      exact (reads_stmt_block own).mpr ⟨ss, read, rfl⟩
  | @Phrase.Spelled.branch c l term yes t own grouped whenTrue =>
      obtain ⟨e, yes', value₁, value₂, rfl⟩ := Phrase.stmt?_branch.mp value
      have test : Reads (condition frame (c ++ (l ++ rest))) e (l ++ rest) :=
        reads_condition.mpr ⟨c, term, rfl, grouped, value₁⟩
      have read : Reads (stmt frame (l ++ rest)) yes' rest :=
        reads_stmt_of_spelled whenTrue nearest value₂ fun _ => free rfl
      rw [List.cons_append, List.append_assoc]
      exact (reads_stmt_if own).mpr ⟨e, _, yes', rest, none, test, read,
        reads_alternative.mpr (.inr ⟨free rfl, rfl, rfl⟩), rfl⟩
  | @Phrase.Spelled.branchElse c l r term yes no t other own grouped whenTrue between whenFalse =>
      obtain ⟨e, yes', no', value₁, value₂, value₃, rfl⟩ := Phrase.stmt?_branchElse.mp value
      obtain ⟨near₁, closed, near₂⟩ := nearest
      have test : Reads (condition frame (c ++ (l ++ other :: (r ++ rest)))) e
          (l ++ other :: (r ++ rest)) :=
        reads_condition.mpr ⟨c, term, rfl, grouped, value₁⟩
      have read₁ : Reads (stmt frame (l ++ other :: (r ++ rest))) yes' (other :: (r ++ rest)) :=
        reads_stmt_of_spelled whenTrue near₁ value₂ (by simp [closed])
      have read₂ : Reads (stmt frame (r ++ rest)) no' rest :=
        reads_stmt_of_spelled whenFalse near₂ value₃ free
      rw [List.cons_append, List.append_assoc, List.append_assoc, List.cons_append]
      exact (reads_stmt_if own).mpr ⟨e, _, yes', _, some no', test, read₁,
        reads_alternative.mpr (.inl ⟨other, _, no', rfl, between, read₂, rfl⟩), rfl⟩
  | @Phrase.Spelled.whileLoop c l term p t own grouped body =>
      obtain ⟨e, s, value₁, value₂, rfl⟩ := Phrase.stmt?_whileLoop.mp value
      have test : Reads (condition frame (c ++ (l ++ rest))) e (l ++ rest) :=
        reads_condition.mpr ⟨c, term, rfl, grouped, value₁⟩
      have read : Reads (stmt frame (l ++ rest)) s rest :=
        reads_stmt_of_spelled body nearest value₂ free
      rw [List.cons_append, List.append_assoc]
      exact (reads_stmt_while own).mpr ⟨e, _, s, test, read, rfl⟩
  | @Phrase.Spelled.forLoop a b c l start condition step p t left first second right own opening
      starts firstEnd continues secondEnd steps closing body =>
      obtain ⟨start', condition', step', s, value₁, value₂, value₃, value₄, rfl⟩ :=
        Phrase.stmt?_forLoop.mp value
      have head : Reads (loopHead frame
          (left :: (a ++ first :: (b ++ second :: (c ++ right :: (l ++ rest))))))
          ⟨start', condition', step'⟩ (l ++ rest) :=
        reads_loopHead.mpr ⟨left, a, first, b, second, c, right, start, condition, step, rfl,
          opening, starts, firstEnd, continues, secondEnd, steps, closing, value₁, value₂, value₃⟩
      have read : Reads (stmt frame (l ++ rest)) s rest :=
        reads_stmt_of_spelled body nearest value₄ free
      have parts : t :: left :: (a ++ first :: (b ++ second :: (c ++ right :: l))) ++ rest
          = t :: left :: (a ++ first :: (b ++ second :: (c ++ right :: (l ++ rest)))) := by
        simp
      rw [parts]
      exact (reads_stmt_for own).mpr ⟨_, _, s, head, read, rfl⟩
  | @Phrase.Spelled.ret ts term t last own inner closing =>
      obtain ⟨e, value', rfl⟩ := Phrase.stmt?_ret.mp value
      have read : Reads (closedExpr frame (ts ++ last :: rest)) e rest :=
        reads_closedExpr.mpr ⟨ts, term, last, rfl, inner, closing, value'⟩
      rw [List.cons_append, List.append_assoc]
      exact (reads_stmt_ret own).mpr ⟨e, read, rfl⟩
  | @Phrase.Spelled.declare h n param length last head array closing =>
      obtain ⟨id, found, rfl⟩ := Phrase.stmt?_declare.mp value
      have read : Reads (declaration frame (h ++ (n ++ last :: rest))) id rest :=
        reads_declaration.mpr ⟨h, param, n, length, last, rfl, head, array, closing, found⟩
      obtain @⟨t, name, scalar, stars, own, -, -⟩ := head
      rw [List.append_assoc, List.append_assoc]
      exact (reads_stmt_declare own).mpr ⟨id, read, rfl⟩

/-- Statements that are spelled are read up to the brace. -/
theorem reads_items_of_spelled {l rest : List Token} {ps : List Phrase} {body : List Stmt}
    {last : Token} (spelled : Phrase.AllSpelled l ps) (nearest : Phrase.AllNearest ps)
    (values : Phrase.stmts? frame ps = some body) (closing : last.kind = .closeBrace)
    : Reads (items frame (l ++ last :: rest)) body rest := by
  match spelled with
  | .nil =>
      cases values
      exact reads_items.mpr (.inl ⟨last, rfl, closing, rfl⟩)
  | @Phrase.AllSpelled.cons l r p ps first others =>
      obtain ⟨s, ss, value, values', rfl⟩ := Phrase.stmts?_cons.mp values
      obtain ⟨near, nears⟩ := nearest
      have read₁ : Reads (stmt frame (l ++ (r ++ last :: rest))) s (r ++ last :: rest) :=
        reads_stmt_of_spelled first near value fun _ => noElse_of_spelled others closing
      have read₂ : Reads (items frame (r ++ last :: rest)) ss rest :=
        reads_items_of_spelled others nears values' closing
      rw [List.append_assoc]
      refine reads_items.mpr (.inr ⟨?_, s, _, ss, read₁, read₂, rfl⟩)
      intro t head same
      obtain ⟨t, r, rfl, own⟩ := phrase_head first
      cases head
      simp [same, Kind.startsStmt, Kind.startsTerm] at own

end

end Grammar

namespace Phrase

-----------------------------------------------------------------------------------------
-- Every `else` in its place
-----------------------------------------------------------------------------------------

/-- An `else` after a statement that can take it belongs into the statement. -/
theorem Spelled.attach {l r : List Token} {p q : Phrase} {t : Token} (spelled : Spelled l p)
    (near : p.Nearest) (ends : p.endsOpen) (between : t.kind = .elseWord) (other : Spelled r q)
    (near' : q.Nearest)
    : ∃ p', Spelled (l ++ t :: r) p' ∧ p'.Nearest ∧ p'.leaves = p.leaves ++ q.leaves := by
  match spelled with
  | .expr .. | .block .. | .ret .. | .declare .. => cases ends
  | @Spelled.branch c l e yes first own condition whenTrue =>
      by_cases opens : yes.endsOpen
      · obtain ⟨yes', spelled', near'', leaves⟩ := whenTrue.attach near opens between other near'
        refine ⟨.branch e yes' none, ?_, near'', by simp [Phrase.leaves, leaves]⟩
        rw [List.cons_append, List.append_assoc]
        exact .branch own condition spelled'
      · refine ⟨.branch e yes (some q), ?_, ⟨near, by simpa using opens, near'⟩, rfl⟩
        rw [List.cons_append, List.append_assoc]
        exact .branchElse own condition whenTrue between other
  | @Spelled.branchElse c l r' e yes no first second own condition whenTrue between' whenFalse =>
      obtain ⟨near₁, closed, near₂⟩ := near
      obtain ⟨no', spelled', near'', leaves⟩ := whenFalse.attach near₂ ends between other near'
      refine ⟨.branch e yes (some no'), ?_, ⟨near₁, closed, near''⟩,
        by simp [Phrase.leaves, leaves]⟩
      have parts : first :: (c ++ (l ++ second :: r')) ++ t :: r
          = first :: (c ++ (l ++ second :: (r' ++ t :: r))) := by
        simp
      rw [parts]
      exact .branchElse own condition whenTrue between' spelled'
  | @Spelled.whileLoop c l e body first own condition inner =>
      obtain ⟨body', spelled', near'', leaves⟩ := inner.attach near ends between other near'
      refine ⟨.whileLoop e body', ?_, near'', by simp [Phrase.leaves, leaves]⟩
      rw [List.cons_append, List.append_assoc]
      exact .whileLoop own condition spelled'
  | @Spelled.forLoop a b c l start condition step body first left semi semi' right own opening
      starts firstEnd continues secondEnd steps closing inner =>
      obtain ⟨body', spelled', near'', leaves⟩ := inner.attach near ends between other near'
      refine ⟨.forLoop start condition step body', ?_, near'', by simp [Phrase.leaves, leaves]⟩
      have parts : first :: left :: (a ++ semi :: (b ++ semi' :: (c ++ right :: l))) ++ t :: r
          = first :: left :: (a ++ semi :: (b ++ semi' :: (c ++ right :: (l ++ t :: r)))) := by
        simp
      rw [parts]
      exact .forLoop own opening starts firstEnd continues secondEnd steps closing spelled'

mutual

/-- What is spelled can be spelled with every `else` at the nearest statement. -/
theorem Spelled.nearest {l : List Token} {p : Phrase} (spelled : Spelled l p)
    : ∃ p', Spelled l p' ∧ p'.Nearest ∧ p'.leaves = p.leaves := by
  match spelled with
  | .expr value closing => exact ⟨_, .expr value closing, trivial, rfl⟩
  | .ret own value closing => exact ⟨_, .ret own value closing, trivial, rfl⟩
  | .declare head array closing => exact ⟨_, .declare head array closing, trivial, rfl⟩
  | .block opening body closing =>
      obtain ⟨ps, spelled', near, leaves⟩ := body.nearest
      exact ⟨.block ps, .block opening spelled' closing, near, leaves⟩
  | .branch own condition whenTrue =>
      obtain ⟨yes, spelled', near, leaves⟩ := whenTrue.nearest
      exact ⟨.branch _ yes none, .branch own condition spelled', near,
        by simp [Phrase.leaves, leaves]⟩
  | @Spelled.branchElse c l r e yes no first second own condition whenTrue between whenFalse =>
      obtain ⟨yes', spelled₁, near₁, leaves₁⟩ := whenTrue.nearest
      obtain ⟨no', spelled₂, near₂, leaves₂⟩ := whenFalse.nearest
      by_cases opens : yes'.endsOpen
      · obtain ⟨yes'', spelled', near, leaves⟩ := spelled₁.attach near₁ opens between spelled₂ near₂
        exact ⟨.branch e yes'' none, .branch own condition spelled', near,
          by simp [Phrase.leaves, leaves, leaves₁, leaves₂]⟩
      · exact ⟨.branch e yes' (some no'), .branchElse own condition spelled₁ between spelled₂,
          ⟨near₁, by simpa using opens, near₂⟩, by simp [Phrase.leaves, leaves₁, leaves₂]⟩
  | .whileLoop own condition body =>
      obtain ⟨body', spelled', near, leaves⟩ := body.nearest
      exact ⟨.whileLoop _ body', .whileLoop own condition spelled', near,
        by simp [Phrase.leaves, leaves]⟩
  | .forLoop own opening starts firstEnd continues secondEnd steps closing body =>
      obtain ⟨body', spelled', near, leaves⟩ := body.nearest
      exact ⟨.forLoop _ _ _ body', .forLoop own opening starts firstEnd continues secondEnd steps
        closing spelled', near, by simp [Phrase.leaves, leaves]⟩

/-- The same for statements one after the other. -/
theorem AllSpelled.nearest {l : List Token} {ps : List Phrase} (spelled : AllSpelled l ps)
    : ∃ ps', AllSpelled l ps' ∧ AllNearest ps' ∧ leavesOf ps' = leavesOf ps := by
  match spelled with
  | .nil => exact ⟨[], .nil, trivial, rfl⟩
  | .cons first others =>
      obtain ⟨p, spelled₁, near₁, leaves₁⟩ := first.nearest
      obtain ⟨ps, spelled₂, near₂, leaves₂⟩ := others.nearest
      exact ⟨p :: ps, .cons spelled₁ spelled₂, ⟨near₁, near₂⟩, by simp [leavesOf, leaves₁, leaves₂]⟩

end

end Phrase

end SlotC
