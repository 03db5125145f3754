import SlotC.Proofs.Grammar.Precedence

/-! Reading expressions layer by layer, with a reader for each layer of operators, and its
agreement with climbing: both read the same expression and leave the same tokens, or reject
the same token for the same cause.
-/

namespace SlotC

namespace Layer

/-- How many layers of operators there are inside the layer. -/
def depth : Layer → Nat
  | .unary => 0
  | .multiplicative => 1
  | .additive => 2
  | .relational => 3
  | .equality => 4
  | .assignment => 5

theorem depth_tighter {layer : Layer} (inner : layer ≠ .unary)
    : layer.tighter.depth < layer.depth := by
  revert inner
  cases layer <;> decide

theorem depth_le (layer : Layer) : layer.depth ≤ 5 := by
  cases layer <;> decide

end Layer

/-- An operator that a layer reads and the next one does not is one of the layer. -/
theorem Operator.layer_eq {layer : Layer} {o : Operator} {least bound : Nat}
    (inner : layer ≠ .unary) (cuts : layer.Cuts least) (cuts' : layer.tighter.Cuts bound)
    (binds : least ≤ o.precedence) (below : o.precedence < bound)
    : o.layer = layer := by
  have low : ¬ o.precedence < layer.least := by
    rw [← cuts o]
    exact Nat.not_lt.mpr binds
  have high : o.precedence < layer.tighter.least := (cuts' o).mp below
  rw [← o.least_layer] at low high
  have same := Nat.le_antisymm ((Layer.le_least_iff inner).mpr high) (Nat.le_of_not_lt low)
  exact Layer.least_injective same

-----------------------------------------------------------------------------------------
-- One reader for each layer
-----------------------------------------------------------------------------------------

namespace Grammar.Layered

/-- What a token between two expressions makes of them, if it is an operator that the layer
chains from left to right. `a > b` is `b < a`, and `a >= b` is `b <= a`.
-/
def chained? : Layer → Kind → Option (Expr → Expr → Expr)
  | .equality, .equal => some fun left right => .binary .equal left right
  | .equality, .notEqual => some fun left right => .binary .notEqual left right
  | .relational, .less => some fun left right => .binary .less left right
  | .relational, .lessEqual => some fun left right => .binary .lessEqual left right
  | .relational, .greater => some fun left right => .binary .less right left
  | .relational, .greaterEqual => some fun left right => .binary .lessEqual right left
  | .additive, .plus => some fun left right => .binary .add left right
  | .additive, .minus => some fun left right => .binary .subtract left right
  | .multiplicative, .star => some fun left right => .binary .multiply left right
  | .multiplicative, .slash => some fun left right => .binary .divide left right
  | _, _ => none

mutual

/-- Reads an expression of the layer: one of the next layer and what extends it. -/
def expr (frame : Frame) (layer : Layer) (ts : List Token) : Reading Expr ts.length :=
  if layer = .unary then unary frame ts
  else do
    let ⟨left, rest, read⟩ ← expr frame layer.tighter ts
    let e ← extend frame layer left rest
    return e.within read
termination_by 9 * ts.length + 2 + layer.depth
decreasing_by
  · omega
  · have := layer.depth_tighter ‹_›
    omega
  · omega

/-- Extends an expression of the layer. An assignment takes one assignment on its right; in
every other layer any number of operands of the next layer follow, each after an operator of
the layer, and are joined from the left.
-/
def extend (frame : Frame) (layer : Layer) (left : Expr)
    : (ts : List Token) → Reading Expr (ts.length + 1)
  | [] => .ok ⟨left, [], nil_fewer⟩
  | t :: ts =>
    if layer = .assignment then
      if t.kind = .assign then do
        let ⟨right, rest, read⟩ ← expr frame .assignment ts
        return ⟨.assign left right, rest, fewer_cons t read⟩
      else .ok ⟨left, t :: ts, cons_fewer t ts⟩
    else
      match chained? layer t.kind with
      | none => .ok ⟨left, t :: ts, cons_fewer t ts⟩
      | some join => do
        let ⟨right, rest, read⟩ ← expr frame layer.tighter ts
        let e ← extend frame layer (join left right) rest
        return e.within (Nat.le_succ_of_le (Nat.le_succ_of_le read))
termination_by ts => 9 * ts.length
decreasing_by
  · simp only [List.length_cons, Layer.depth]
    omega
  · have := layer.tighter.depth_le
    simp only [List.length_cons]
    omega
  · simp only [List.length_cons]
    omega

/-- Reads an operand with the operators in front of it. -/
def unary (frame : Frame) : (ts : List Token) → Reading Expr ts.length
  | [] => .error .ranOut
  | t :: ts =>
    match t.kind with
    | .plus => do
      let e ← unary frame ts
      return e.within (by simp)
    | .minus => do
      let ⟨operand, rest, _⟩ ← unary frame ts
      return ⟨.binary .subtract (.constant 0) operand, rest,
        by simp only [List.length_cons]; omega⟩
    | .ampersand => do
      let ⟨operand, rest, _⟩ ← unary frame ts
      return ⟨.addressOf operand, rest, by simp only [List.length_cons]; omega⟩
    | .star => do
      let ⟨operand, rest, _⟩ ← unary frame ts
      return ⟨.deref operand, rest, by simp only [List.length_cons]; omega⟩
    | .sizeofWord =>
      match ts with
      | [] => .error .ranOut
      | first :: ts => do
        let ⟨operand, rest, _⟩ ← unary frame (first :: ts)
        match sizeOf? frame operand with
        | some size =>
          return ⟨.constant size, rest, by simp only [List.length_cons] at *; omega⟩
        | none => .error (.reject .invalidSizeofOperand first)
    | _ => primary frame (t :: ts)
termination_by ts => 9 * ts.length + 1
decreasing_by all_goals simp only [List.length_cons] at *; omega

/-- Reads a variable, an element of an array, a call, a number or an expression in
parentheses.
-/
def primary (frame : Frame) : (ts : List Token) → Reading Expr ts.length
  | [] => .error .ranOut
  | t :: ts =>
    match t.kind with
    | .identifier =>
      match ts with
      | [] => do
        let e ← named frame t
        return ⟨e, [], by simp⟩
      | next :: ts =>
        match next.kind with
        | .openParen => do
          let ⟨arguments, rest, _⟩ ← arguments frame ts
          return ⟨.call t.text arguments, rest, by simp only [List.length_cons]; omega⟩
        | .openBracket => do
          let base ← named frame t
          let ⟨index, rest, _⟩ ← expr frame .assignment ts
          let ⟨_, rest, _⟩ ← expect .closeBracket rest
          return ⟨.deref (.binary .add base index), rest,
            by simp only [List.length_cons]; omega⟩
        | _ => do
          let e ← named frame t
          return ⟨e, next :: ts, by simp⟩
    | .openParen => do
      let ⟨e, rest, _⟩ ← expr frame .assignment ts
      let ⟨_, rest, _⟩ ← expect .closeParen rest
      return ⟨e, rest, by simp only [List.length_cons]; omega⟩
    | .constant => .ok ⟨.constant t.value, ts, fewer_tail t ts⟩
    | _ => .error (.reject (.badFactor t) t)
termination_by ts => 9 * ts.length
decreasing_by all_goals simp only [List.length_cons, Layer.depth] at *; omega

/-- Reads the arguments of a call and the parenthesis after them. -/
def arguments (frame : Frame) : (ts : List Token) → Reading (List Expr) ts.length
  | [] => .error .ranOut
  | t :: ts =>
    if t.kind = .closeParen then .ok ⟨[], ts, fewer_tail t ts⟩
    else argumentList frame (t :: ts)
termination_by ts => 9 * ts.length + 9
decreasing_by all_goals simp only [List.length_cons] at *; omega

/-- Reads arguments, one at least, and the parenthesis after them. -/
def argumentList (frame : Frame) (ts : List Token) : Reading (List Expr) ts.length := do
  let ⟨argument, rest, first⟩ ← expr frame .assignment ts
  let ⟨more, rest, second⟩ ← argumentTail frame rest
  return ⟨argument :: more, rest, fewer_trans first second⟩
termination_by 9 * ts.length + 8
decreasing_by
  · simp only [Layer.depth]
    omega
  · omega

/-- Reads the arguments that follow an argument, and the parenthesis after them. -/
def argumentTail (frame : Frame) : (ts : List Token) → Reading (List Expr) ts.length
  | [] => .error .ranOut
  | t :: ts =>
    if t.kind = .comma then do
      let more ← argumentList frame ts
      return more.within (by simp)
    else do
      let ⟨_, rest, _⟩ ← expect .closeParen (t :: ts)
      return ⟨[], rest, by assumption⟩
termination_by ts => 9 * ts.length
decreasing_by all_goals simp only [List.length_cons] at *; omega

end

/-- The operators that a layer chains are those of the grammar, with what they build. -/
theorem chained?_eq (layer : Layer) (kind : Kind)
    : chained? layer kind = (layer.operators.lookup kind).map Operator.build := by
  cases layer <;> cases kind <;> rfl

end Grammar.Layered

-----------------------------------------------------------------------------------------
-- Agreement with climbing
-----------------------------------------------------------------------------------------

namespace Grammar

section

variable {α β : Type} {bound bound' : Nat} {x y : Reading α bound}

/-- What a reader answers, without the bound on the tokens that are left. -/
def outcome (x : Reading α bound) : Except Failure (α × List Token) :=
  x.map fun p => (p.value, p.rest)

theorem outcome_injective (same : outcome x = outcome y) : x = y := by
  cases x with
  | error failure =>
      cases y with
      | error failure' =>
          cases same
          rfl
      | ok q => cases same
  | ok p =>
      cases y with
      | error failure => cases same
      | ok q =>
          obtain ⟨a, rest, _⟩ := p
          obtain ⟨b, rest', _⟩ := q
          cases same
          rfl

theorem outcome_eq_ok {a : α} {rest : List Token} : outcome x = .ok (a, rest) ↔ Reads x a rest := by
  cases x with
  | error failure => simp [outcome, Except.map]
  | ok p =>
      obtain ⟨b, rest', _⟩ := p
      simp [outcome, Except.map, eq_comm]

/-- Two steps answer what the second answers after the first. -/
theorem outcome_bind {k : Parsed α bound → Reading β bound'}
    {answer : α × List Token → Except Failure (β × List Token)}
    (next : ∀ p : Parsed α bound, outcome (k p) = answer (p.value, p.rest))
    : outcome (x >>= k) = outcome x >>= answer := by
  cases x with
  | error failure => rfl
  | ok p => exact next p

theorem outcome_within {le : bound ≤ bound'}
    : outcome (x >>= fun p => pure (p.within le)) = outcome x := by
  cases x with
  | error failure => rfl
  | ok p => rfl

end

/-- Two steps answer the same if their second steps do after every result of the first. -/
theorem bind_congr_ok {ε α β : Type} {x : Except ε α} {f g : α → Except ε β}
    (same : ∀ a, x = .ok a → f a = g a)
    : (x >>= f) = (x >>= g) := by
  cases x with
  | error failure => rfl
  | ok a => exact same a rfl

variable {frame : Frame} {layer : Layer} {least : Nat} {ts : List Token} {t : Token}
  {o : Operator} {left : Expr}

theorem outcome_expr
    : outcome (expr frame least ts)
      = outcome (unary frame ts) >>= fun p => outcome (climb frame least p.1 p.2) := by
  rw [expr]
  exact outcome_bind fun p => outcome_within

theorem outcome_climb_stop (stops : Stops least ts)
    : outcome (climb frame least left ts) = .ok (left, ts) :=
  outcome_eq_ok.mpr ((reads_climb_stop stops).mpr ⟨rfl, rfl⟩)

theorem outcome_climb_operator (own : t.kind.operator? = some o) (binds : least ≤ o.precedence)
    : outcome (climb frame least left (t :: ts))
      = outcome (expr frame o.rightPrecedence ts)
        >>= fun p => outcome (climb frame least (o.build left p.1) p.2) := by
  rw [climb]
  split
  · next none => simp [own] at none
  · next o' own' =>
      obtain rfl : o = o' := Option.some.inj (own.symm.trans own')
      rw [if_neg (Nat.not_lt.mpr binds)]
      exact outcome_bind fun p => outcome_within

theorem outcome_layered (inner : layer ≠ .unary)
    : outcome (Layered.expr frame layer ts)
      = outcome (Layered.expr frame layer.tighter ts)
        >>= fun p => outcome (Layered.extend frame layer p.1 p.2) := by
  rw [Layered.expr, if_neg inner]
  exact outcome_bind fun p => outcome_within

/-- An expression of a layer is not extended before an operator of a looser layer. -/
theorem outcome_extend_stop (stops : Stops layer.least ts)
    : outcome (Layered.extend frame layer left ts) = .ok (left, ts) := by
  cases ts with
  | nil =>
      rw [Layered.extend]
      rfl
  | cons t ts =>
      rw [Layered.extend]
      split
      · next assigns =>
          split
          · next own =>
              subst assigns
              have lt := stops t rfl .assign (by rw [own]; rfl)
              exact absurd lt (by decide)
          · rfl
      · split
        · rfl
        · next join chained =>
            rw [Layered.chained?_eq, Option.map_eq_some_iff] at chained
            obtain ⟨o, own, rfl⟩ := chained
            have member : (t.kind, o) ∈ layer.operators := by
              obtain ⟨before, after, all, -⟩ := List.lookup_eq_some_iff.mp own
              simp [all]
            obtain ⟨operator, same, -⟩ := Operator.of_mem member
            have lt := stops t rfl o operator
            rw [← o.least_layer, same] at lt
            exact absurd lt (Nat.lt_irrefl _)

/-- An assignment is extended by one assignment. -/
theorem outcome_extend_assign (own : t.kind = .assign)
    : outcome (Layered.extend frame .assignment left (t :: ts))
      = outcome (Layered.expr frame .assignment ts) >>= fun p => .ok (.assign left p.1, p.2) := by
  rw [Layered.extend, if_pos rfl, if_pos own]
  exact outcome_bind fun p => rfl

/-- An expression of any other layer is extended by one operand and then further. -/
theorem outcome_extend_operator (own : t.kind.operator? = some o) (chained : o ≠ .assign)
    : outcome (Layered.extend frame o.layer left (t :: ts))
      = outcome (Layered.expr frame o.layer.tighter ts)
        >>= fun p => outcome (Layered.extend frame o.layer (o.build left p.1) p.2) := by
  obtain ⟨notFirst, -, -⟩ := Operator.chained_layer chained
  have joins : Layered.chained? o.layer t.kind = some o.build := by
    rw [Layered.chained?_eq, Operator.lookup_operators own chained]
    rfl
  rw [Layered.extend, if_neg notFirst, joins]
  exact outcome_bind fun p => outcome_within

/-- No operator follows a right operand that could have been read into it. -/
theorem stops_after_operand {p : Expr × List Token}
    (read : outcome (expr frame o.rightPrecedence ts) = .ok p)
    : Stops o.layer.after.least p.2 := by
  obtain ⟨_, _, _, _, _, stops⟩ := expr_spelled ts o.cuts_right (outcome_eq_ok.mp read)
  exact stops

/-- Climbing reads what the operators of the next layer let it read and then extends that by
those of the layer, if the layers read the right operands as climbing does.
-/
theorem outcome_climb_extend (ts : List Token) {bound : Nat} (left : Expr) (inner : layer ≠ .unary)
    (cuts : layer.Cuts least) (cuts' : layer.tighter.Cuts bound)
    (operands : ∀ r : List Token, r.length < ts.length → ∀ (own : Layer) (least : Nat),
      own.Cuts least → outcome (expr frame least r) = outcome (Layered.expr frame own r))
    : outcome (climb frame least left ts)
      = outcome (climb frame bound left ts)
        >>= fun p => outcome (Layered.extend frame layer p.1 p.2) := by
  by_cases stops : Stops least ts
  · have low : Stops layer.least ts := (stops_iff cuts).mp stops
    have high : Stops bound ts := (stops_iff cuts').mpr (low.mono layer.least_tighter)
    rw [outcome_climb_stop stops, outcome_climb_stop high]
    exact (outcome_extend_stop low).symm
  · match ts, operands, stops with
    | [], _, stops => exact absurd (by simp [Stops]) stops
    | t :: ts, operands, stops =>
        simp only [Stops, List.head?_cons, Option.mem_def, Option.some.injEq, forall_eq',
          not_forall, Nat.not_lt] at stops
        obtain ⟨o, own, binds⟩ := stops
        -- What follows an operand is shorter, so the same holds of it.
        have later (left right : Expr) (rest : List Token)
            (read : outcome (expr frame o.rightPrecedence ts) = .ok (right, rest))
            : outcome (climb frame least left rest)
              = outcome (climb frame bound left rest)
                >>= fun p => outcome (Layered.extend frame layer p.1 p.2) := by
          have fewer := (outcome_eq_ok.mp read).fewer
          refine outcome_climb_extend rest left inner cuts cuts' ?_
          intro r less
          exact operands r (Nat.lt_trans less (Nat.lt_trans fewer (fewer_tail t ts)))
        rw [outcome_climb_operator own binds]
        by_cases tight : bound ≤ o.precedence
        · rw [outcome_climb_operator own tight, bind_assoc]
          refine bind_congr_ok ?_
          intro p read
          exact later _ p.1 p.2 read
        · have below : o.precedence < bound := Nat.lt_of_not_le tight
          obtain rfl : o.layer = layer := Operator.layer_eq inner cuts cuts' binds below
          rw [outcome_climb_stop (stops_operator own below)]
          by_cases assigns : o = .assign
          · subst assigns
            calc outcome (expr frame Operator.assign.rightPrecedence ts)
                  >>= (fun p => outcome (climb frame least (.assign left p.1) p.2))
                = outcome (expr frame Operator.assign.rightPrecedence ts)
                  >>= (fun p => .ok (.assign left p.1, p.2)) := by
                  refine bind_congr_ok fun p read => outcome_climb_stop ?_
                  exact (stops_iff cuts).mpr (stops_after_operand read)
              _ = outcome (Layered.expr frame .assignment ts)
                  >>= (fun p => .ok (.assign left p.1, p.2)) := by
                  rw [operands ts (fewer_tail t ts) _ _ (Operator.cuts_right .assign)]
                  rfl
              _ = outcome (Layered.extend frame .assignment left (t :: ts)) :=
                  (outcome_extend_assign (Operator.assign_of_operator own)).symm
          · obtain ⟨-, next, -⟩ := Operator.chained_layer assigns
            calc outcome (expr frame o.rightPrecedence ts)
                  >>= (fun p => outcome (climb frame least (o.build left p.1) p.2))
                = outcome (expr frame o.rightPrecedence ts)
                  >>= (fun p => outcome (Layered.extend frame o.layer (o.build left p.1) p.2)) := by
                  refine bind_congr_ok fun p read => ?_
                  have stops : Stops bound p.2 :=
                    (stops_iff cuts').mpr (next ▸ stops_after_operand read)
                  rw [later _ p.1 p.2 read, outcome_climb_stop stops]
                  rfl
              _ = outcome (Layered.expr frame o.layer.tighter ts)
                  >>= (fun p => outcome (Layered.extend frame o.layer (o.build left p.1) p.2)) := by
                  rw [operands ts (fewer_tail t ts) _ _ (next ▸ o.cuts_right)]
              _ = outcome (Layered.extend frame o.layer left (t :: ts)) :=
                  (outcome_extend_operator own assigns).symm
termination_by ts.length
decreasing_by
  have less := fewer_tail t ts
  omega

mutual

/-- Climbing with the bound of a layer reads an expression of the layer. -/
theorem outcome_expr_layered (ts : List Token) (layer : Layer) (least : Nat)
    (cuts : layer.Cuts least)
    : outcome (expr frame least ts) = outcome (Layered.expr frame layer ts) := by
  by_cases inner : layer = .unary
  · subst inner
    have stops (rest : List Token) : Stops least rest := (stops_iff cuts).mpr stops_unary
    rw [outcome_expr, Layered.expr, if_pos rfl, ← unary_layered ts]
    calc outcome (unary frame ts) >>= (fun p => outcome (climb frame least p.1 p.2))
        = outcome (unary frame ts) >>= pure :=
          bind_congr_ok fun p _ => outcome_climb_stop (stops p.2)
      _ = outcome (unary frame ts) := bind_pure _
  · have tighter := outcome_expr_layered ts layer.tighter layer.tighter.least fun _ => Iff.rfl
    rw [outcome_layered inner, ← tighter, outcome_expr, outcome_expr, bind_assoc]
    refine bind_congr_ok fun p read => ?_
    have fewer := (outcome_eq_ok.mp read).fewer
    refine outcome_climb_extend p.2 p.1 inner cuts (fun _ => Iff.rfl) ?_
    intro r less own least' cuts'
    exact outcome_expr_layered r own least' cuts'
termination_by 9 * ts.length + 2 + layer.depth
decreasing_by
  · omega
  · have := layer.depth_tighter inner
    omega
  · have := own.depth_le
    omega

/-- The operands with signs are the same. -/
theorem unary_layered (ts : List Token) : unary frame ts = Layered.unary frame ts := by
  match ts with
  | [] => rw [unary, Layered.unary]
  | [t] =>
      rw [unary.eq_def]
      simp only [unary_layered [], primary_layered [t]]
      exact (Layered.unary.eq_def frame [t]).symm
  | t :: first :: ts =>
      rw [unary.eq_def]
      simp only [unary_layered (first :: ts), primary_layered (t :: first :: ts)]
      exact (Layered.unary.eq_def frame (t :: first :: ts)).symm
termination_by 9 * ts.length + 1
decreasing_by all_goals simp only [List.length_cons] at *; omega

/-- The operands are the same. -/
theorem primary_layered (ts : List Token) : primary frame ts = Layered.primary frame ts := by
  match ts with
  | [] => rw [primary, Layered.primary]
  | [t] =>
      have inner := outcome_injective (outcome_expr_layered [] .assignment 0 Layer.cuts_zero)
      rw [primary.eq_def]
      simp only [inner]
      exact (Layered.primary.eq_def frame [t]).symm
  | t :: next :: ts =>
      have group :=
        outcome_injective (outcome_expr_layered (next :: ts) .assignment 0 Layer.cuts_zero)
      have index := outcome_injective (outcome_expr_layered ts .assignment 0 Layer.cuts_zero)
      have given := arguments_layered ts
      rw [primary.eq_def]
      simp only [group, index, given]
      exact (Layered.primary.eq_def frame (t :: next :: ts)).symm
termination_by 9 * ts.length
decreasing_by all_goals simp only [List.length_cons, List.length_nil, Layer.depth] at *; omega

/-- The arguments of calls are the same. -/
theorem arguments_layered (ts : List Token) : arguments frame ts = Layered.arguments frame ts := by
  match ts with
  | [] => rw [arguments, Layered.arguments]
  | t :: ts => rw [arguments, Layered.arguments, argumentList_layered (t :: ts)]
termination_by 9 * ts.length + 9
decreasing_by omega

/-- The same for arguments of which there is one at least. -/
theorem argumentList_layered (ts : List Token)
    : argumentList frame ts = Layered.argumentList frame ts := by
  have first := outcome_injective (outcome_expr_layered ts .assignment 0 Layer.cuts_zero)
  rw [argumentList, Layered.argumentList, first]
  refine bind_congr_ok fun p _ => ?_
  obtain ⟨argument, rest, fewer⟩ := p
  simp only [argumentTail_layered rest]
termination_by 9 * ts.length + 8
decreasing_by
  · simp only [Layer.depth]
    omega
  · omega

/-- The same for the arguments after one. -/
theorem argumentTail_layered (ts : List Token)
    : argumentTail frame ts = Layered.argumentTail frame ts := by
  match ts with
  | [] => rw [argumentTail, Layered.argumentTail]
  | t :: ts => rw [argumentTail, Layered.argumentTail, argumentList_layered ts]
termination_by 9 * ts.length
decreasing_by
  simp only [List.length_cons]
  omega

end

end Grammar

/-- Climbing from the loosest operators on and reading layer by layer are the same: they read
the same expression and leave the same tokens, or they stop for the same cause at the same
token.
-/
theorem expr_eq_layered (frame : Frame) (ts : List Token)
    : Grammar.expr frame 0 ts = Grammar.Layered.expr frame .assignment ts :=
  Grammar.outcome_injective (Grammar.outcome_expr_layered ts .assignment 0 Layer.cuts_zero)

end SlotC
