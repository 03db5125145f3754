import SlotC.Proofs.Code.Emission

/-! The lines of every form of expression and statement, as an equivalence for each form.
The pieces that are always the same have names of their own.
-/

namespace SlotC

-----------------------------------------------------------------------------------------
-- Pieces of code that are always the same
-----------------------------------------------------------------------------------------

namespace Listing

/-- Pushes the address of a variable. -/
def pushAddress (v : Variable) : Listing :=
  [.instr (.mov (.reg .rax) (.reg .rbp)), .instr (.arith .sub (.reg .rax) (.imm v.offset)),
    .instr (.push (.reg .rax))]

/-- Pushes a number. -/
def pushConstant (value : Int64) : Listing :=
  if fitsInt32 value.toInt then [.instr (.push (.imm value.toInt))]
  else [.instr (.mov (.reg .rax) (.imm value.toInt)), .instr (.push (.reg .rax))]

/-- Replaces the address on top of the stack by the value that it points to. -/
def load : Listing :=
  [.instr (.pop .rax), .instr (.mov (.reg .rax) (.mem .rax)), .instr (.push (.reg .rax))]

/-- Writes the value on top of the stack to the address below it, and leaves the value. -/
def store : Listing :=
  [.instr (.pop .rdi), .instr (.pop .rax), .instr (.mov (.mem .rax) (.reg .rdi)),
    .instr (.push (.reg .rdi))]

/-- Scales the right operand, if it counts in more than bytes. -/
def scale : Option Nat → Listing
  | some step => [.instr (.arith .imul (.reg .rdi) (.imm step))]
  | none => []

/-- Applies an operator to the two values on top of the stack. -/
def operate (op : BinaryOp) (step : Option Nat) : Listing :=
  [.instr (.pop .rdi), .instr (.pop .rax)] ++ scale step ++ op.instrs.map .instr
    ++ [.instr (.push (.reg .rax))]

/-- Pops values into registers, in order. -/
def popAll (registers : List Register) : Listing :=
  registers.map fun register => .instr (.pop register)

/-- Calls a function at a depth, with `rsp` moved around the call if the depth is odd. -/
def alignedCall (depth : Int) (name : String) : Listing :=
  if depth % 2 = 0 then [.instr (.mov (.reg .rax) (.imm 0)), .instr (.call name)]
  else
    [.instr (.arith .sub (.reg .rsp) (.imm slotSize)), .instr (.mov (.reg .rax) (.imm 0)),
      .instr (.call name), .instr (.arith .add (.reg .rsp) (.imm slotSize))]

/-- Pops a value and jumps to the label if it is zero. -/
def jumpIfZero (l : Label) : Listing :=
  [.instr (.pop .rax), .instr (.cmp (.reg .rax) (.imm 0)), .instr (.jmpIf .e l)]

/-- A conditional statement with the given test and branches. -/
def branch (id : Nat) (test yes no : Listing) : Listing :=
  test ++ (jumpIfZero (.otherwise id)
    ++ (yes ++ ([.instr (.jmp (.finish id)), .label (.otherwise id)]
      ++ (no ++ [.label (.finish id)]))))

/-- A loop with the given test, body and step. -/
def repetition (id : Nat) (test body step : Listing) : Listing :=
  [.label (.start id)] ++ (test ++ (body ++ ([.instr (.pop .rax)]
    ++ (step ++ [.instr (.jmp (.start id)), .label (.finish id)]))))

/-- Leaves the function. -/
def epilogue : Listing :=
  [.instr (.mov (.reg .rsp) (.reg .rbp)), .instr (.pop .rbp), .instr .ret]

end Listing

/-- The state with `change` more values on the stack. -/
def GenState.deeper (g : GenState) (change : Int) : GenState :=
  ⟨g.nextLabel, g.depth + change⟩

@[simp] theorem GenState.deeper_depth (g : GenState) (change : Int)
    : (g.deeper change).depth = g.depth + change :=
  rfl

@[simp] theorem GenState.deeper_deeper (g : GenState) (first second : Int)
    : (g.deeper first).deeper second = g.deeper (first + second) := by
  simp [deeper, Int.add_assoc]

@[simp] theorem GenState.deeper_zero (g : GenState) : g.deeper 0 = g := by
  simp [deeper]

namespace Emit

variable {f : Function} {g g' : GenState} {ls : Listing}

theorem emits_address {v : Variable}
    : (address v).Emits g ls g' () ↔ ls = Listing.pushAddress v ∧ g' = g.deeper 1 :=
  Emits.iff_of_eq rfl

theorem emits_constant {value : Int64}
    : (constant value).Emits g ls g' ()
      ↔ ls = Listing.pushConstant value ∧ g' = g.deeper 1 := by
  unfold constant Listing.pushConstant
  split
  · exact Emits.iff_of_eq rfl
  · exact Emits.iff_of_eq rfl

theorem emits_load : load.Emits g ls g' () ↔ ls = Listing.load ∧ g' = g := by
  have course : load.Emits g Listing.load ((g.deeper (-1)).deeper 1) () := rfl
  simpa using Emits.iff_of_eq course

theorem emits_store : store.Emits g ls g' () ↔ ls = Listing.store ∧ g' = g.deeper (-1) := by
  have course
      : store.Emits g Listing.store (((g.deeper (-1)).deeper (-1)).deeper 1) () := rfl
  simpa using Emits.iff_of_eq course

theorem emits_scale {step : Option Nat}
    : (scale step).Emits g ls g' () ↔ ls = Listing.scale step ∧ g' = g := by
  cases step with
  | none => exact Emits.iff_of_eq rfl
  | some step => exact Emits.iff_of_eq rfl

theorem emits_operate {op : BinaryOp} {step : Option Nat}
    : (operate op step).Emits g ls g' ()
      ↔ ls = Listing.operate op step ∧ g' = g.deeper (-1) := by
  have course
      : (operate op step).Emits g (Listing.operate op step)
          (((g.deeper (-1)).deeper (-1)).deeper 1) () := by
    simp only [operate, emits_bind_unit, emits_pop, emits_scale, emits_lines, emits_push]
    exact ⟨_, _, _, ⟨rfl, rfl⟩, ⟨_, _, _, ⟨rfl, rfl⟩, ⟨_, _, _, ⟨rfl, rfl⟩,
      ⟨_, _, _, ⟨rfl, rfl⟩, ⟨rfl, rfl⟩, rfl⟩, rfl⟩, rfl⟩, by simp [Listing.operate]⟩
  simpa using Emits.iff_of_eq course

theorem emits_popAll {registers : List Register}
    : (popAll registers).Emits g ls g' ()
      ↔ ls = Listing.popAll registers ∧ g' = g.deeper (-registers.length) := by
  induction registers generalizing g ls with
  | nil => simp [popAll, Listing.popAll]
  | cons register registers ih =>
      have depth : (g.deeper (-1)).deeper (-registers.length)
          = g.deeper (-(register :: registers).length) := by
        rw [GenState.deeper_deeper, List.length_cons, Int.natCast_succ, Int.neg_add, Int.add_comm]
      have first : (pop register).Emits g [.instr (.pop register)] (g.deeper (-1)) () := rfl
      rw [popAll, emits_bind_of_emits first]
      constructor
      · rintro ⟨l₂, rest, rfl⟩
        obtain ⟨rfl, rfl⟩ := ih.mp rest
        exact ⟨rfl, depth⟩
      · rintro ⟨rfl, rfl⟩
        exact ⟨_, ih.mpr ⟨rfl, depth.symm⟩, rfl⟩

theorem emits_alignedCall {name : String}
    : (alignedCall name).Emits g ls g' ()
      ↔ ls = Listing.alignedCall g.depth name ∧ g' = g := by
  simp only [alignedCall, emits_depth_bind, Listing.alignedCall]
  split
  · exact emits_lines
  · exact emits_lines

theorem emits_callWith {name : String} {count : Nat}
    (few : count ≤ Register.forArguments.length)
    : (callWith name count).Emits g ls g' ()
      ↔ ls = Listing.popAll (Register.forArguments.take count).reverse
            ++ Listing.alignedCall (g.depth - count) name ++ [.instr (.push (.reg .rax))]
        ∧ g' = g.deeper (1 - count) := by
  have taken : (Register.forArguments.take count).reverse.length = count := by
    simp [Nat.min_eq_left few]
  have course
      : (callWith name count).Emits g
          (Listing.popAll (Register.forArguments.take count).reverse
            ++ Listing.alignedCall (g.depth - count) name ++ [.instr (.push (.reg .rax))])
          ((g.deeper (-count)).deeper 1) () := by
    simp only [callWith, emits_bind_unit, emits_popAll, emits_alignedCall, emits_push, taken]
    exact ⟨_, _, _, ⟨rfl, rfl⟩, ⟨_, _, _, ⟨rfl, rfl⟩, ⟨rfl, rfl⟩, rfl⟩,
      by simp [Int.sub_eq_add_neg]⟩
  have rise : (g.deeper (-count)).deeper 1 = g.deeper (1 - count) := by
    rw [GenState.deeper_deeper, Int.sub_eq_add_neg, Int.add_comm]
  exact rise ▸ Emits.iff_of_eq course

theorem emits_variableOf_bind {β : Type} {id : Nat} {k : Variable → Emit β} {b : β}
    : (variableOf f id >>= k).Emits g ls g' b
      ↔ ∃ v, f.get? id = some v ∧ (k v).Emits g ls g' b := by
  rw [emits_bind]
  unfold variableOf
  cases found : f.get? id with
  | none => simp
  | some v =>
      simp only [emits_pure, Option.some.injEq, exists_eq_left']
      constructor
      · rintro ⟨_, _, _, l₂, ⟨rfl, rfl, rfl⟩, emitted, rfl⟩
        exact emitted
      · intro emitted
        exact ⟨v, [], g, ls, ⟨rfl, rfl, rfl⟩, emitted, rfl⟩

/-- The target of an assignment passes the check unless it is an unknown variable or an
array.
-/
theorem emits_checkTarget {target : Expr}
    : (checkTarget f target).Emits g ls g' ()
      ↔ (∀ id, target = .var id → ∃ v, f.get? id = some v ∧ v.isArray = false)
        ∧ ls = [] ∧ g' = g := by
  cases target with
  | var id =>
      simp only [checkTarget, emits_variableOf_bind, Expr.var.injEq, forall_eq']
      constructor
      · rintro ⟨v, found, emitted⟩
        cases array : v.isArray with
        | true => simp [array] at emitted
        | false => exact ⟨⟨v, found, array⟩, by simpa [array] using emitted⟩
      · rintro ⟨⟨v, found, array⟩, emitted⟩
        exact ⟨v, found, by simpa [array] using emitted⟩
  | constant | binary | assign | addressOf | deref | call => simp [checkTarget]

-----------------------------------------------------------------------------------------
-- Expressions
-----------------------------------------------------------------------------------------

theorem emits_value_constant {value : Int64}
    : (Emit.value f (.constant value)).Emits g ls g' ()
      ↔ ls = Listing.pushConstant value ∧ g' = g.deeper 1 := by
  rw [Emit.value]
  exact emits_constant

theorem emits_value_var {id : Nat}
    : (value f (.var id)).Emits g ls g' ()
      ↔ ∃ v, f.get? id = some v
          ∧ ls = Listing.pushAddress v ++ (if v.isArray then [] else Listing.load)
          ∧ g' = g.deeper 1 := by
  simp only [value, emits_variableOf_bind, emits_bind_unit, emits_address]
  apply exists_congr
  intro v
  apply and_congr_right
  intro _
  cases v.isArray with
  | true =>
      constructor
      · rintro ⟨l₁, g₁, l₂, ⟨rfl, rfl⟩, last, rfl⟩
        obtain ⟨rfl, rfl, -⟩ := emits_pure.mp last
        exact ⟨rfl, rfl⟩
      · rintro ⟨rfl, rfl⟩
        exact ⟨_, _, _, ⟨rfl, rfl⟩, emits_pure.mpr ⟨rfl, rfl, rfl⟩, rfl⟩
  | false =>
      constructor
      · rintro ⟨l₁, g₁, l₂, ⟨rfl, rfl⟩, last, rfl⟩
        obtain ⟨rfl, rfl⟩ := emits_load.mp last
        exact ⟨rfl, rfl⟩
      · rintro ⟨rfl, rfl⟩
        exact ⟨_, _, _, ⟨rfl, rfl⟩, emits_load.mpr ⟨rfl, rfl⟩, rfl⟩

theorem emits_value_binary {op : BinaryOp} {left right : Expr}
    : (value f (.binary op left right)).Emits g ls g' ()
      ↔ ∃ l₁ g₁ l₂ g₂, (value f left).Emits g l₁ g₁ () ∧ (value f right).Emits g₁ l₂ g₂ ()
          ∧ ls = l₁ ++ (l₂ ++ Listing.operate op (pointerStep? f op left))
          ∧ g' = g₂.deeper (-1) := by
  simp only [value, emits_bind_unit, emits_operate]
  constructor
  · rintro ⟨l₁, g₁, _, first, ⟨l₂, g₂, _, second, ⟨rfl, rfl⟩, rfl⟩, rfl⟩
    exact ⟨l₁, g₁, l₂, g₂, first, second, rfl, rfl⟩
  · rintro ⟨l₁, g₁, l₂, g₂, first, second, rfl, rfl⟩
    exact ⟨l₁, g₁, _, first, ⟨l₂, g₂, _, second, ⟨rfl, rfl⟩, rfl⟩, rfl⟩

theorem emits_value_assign {target source : Expr}
    : (value f (.assign target source)).Emits g ls g' ()
      ↔ (∀ id, target = .var id → ∃ v, f.get? id = some v ∧ v.isArray = false)
        ∧ ∃ l₁ g₁ l₂ g₂, (place f target).Emits g l₁ g₁ () ∧ (value f source).Emits g₁ l₂ g₂ ()
            ∧ ls = l₁ ++ (l₂ ++ Listing.store) ∧ g' = g₂.deeper (-1) := by
  simp only [value, emits_bind_unit, emits_checkTarget, emits_store]
  constructor
  · rintro ⟨_, _, _, ⟨check, rfl, rfl⟩, ⟨l₁, g₁, _, first, ⟨l₂, g₂, _, second, ⟨rfl, rfl⟩,
      rfl⟩, rfl⟩, rfl⟩
    exact ⟨check, l₁, g₁, l₂, g₂, first, second, rfl, rfl⟩
  · rintro ⟨check, l₁, g₁, l₂, g₂, first, second, rfl, rfl⟩
    exact ⟨[], g, _, ⟨check, rfl, rfl⟩, ⟨l₁, g₁, _, first, ⟨l₂, g₂, _, second, ⟨rfl, rfl⟩,
      rfl⟩, rfl⟩, rfl⟩

theorem emits_value_addressOf {operand : Expr}
    : (value f (.addressOf operand)).Emits g ls g' () ↔ (place f operand).Emits g ls g' () := by
  rw [value]

theorem emits_value_deref {operand : Expr}
    : (value f (.deref operand)).Emits g ls g' ()
      ↔ ∃ l₁, (value f operand).Emits g l₁ g' () ∧ ls = l₁ ++ Listing.load := by
  simp only [value, emits_bind_unit, emits_load]
  constructor
  · rintro ⟨l₁, g₁, _, first, ⟨rfl, rfl⟩, rfl⟩
    exact ⟨l₁, first, rfl⟩
  · rintro ⟨l₁, first, rfl⟩
    exact ⟨l₁, g', _, first, ⟨rfl, rfl⟩, rfl⟩

theorem emits_value_call {name : String} {arguments : List Expr}
    : (value f (.call name arguments)).Emits g ls g' ()
      ↔ arguments.length ≤ Register.forArguments.length
        ∧ ∃ l₁ g₁, (values f arguments).Emits g l₁ g₁ ()
            ∧ ls = l₁ ++ (Listing.popAll (Register.forArguments.take arguments.length).reverse
                ++ Listing.alignedCall (g₁.depth - arguments.length) name
                ++ [.instr (.push (.reg .rax))])
            ∧ g' = g₁.deeper (1 - arguments.length) := by
  simp only [value]
  split
  · next many => simp [Nat.not_le.mpr many]
  · next few =>
      have few : arguments.length ≤ Register.forArguments.length := Nat.le_of_not_lt few
      simp only [emits_bind_unit, emits_callWith few, few, true_and]
      constructor
      · rintro ⟨l₁, g₁, _, first, ⟨rfl, rfl⟩, rfl⟩
        exact ⟨l₁, g₁, first, rfl, rfl⟩
      · rintro ⟨l₁, g₁, first, rfl, rfl⟩
        exact ⟨l₁, g₁, _, first, ⟨rfl, rfl⟩, rfl⟩

theorem emits_place_var {id : Nat}
    : (place f (.var id)).Emits g ls g' ()
      ↔ ∃ v, f.get? id = some v ∧ ls = Listing.pushAddress v ∧ g' = g.deeper 1 := by
  simp only [place, emits_variableOf_bind, emits_address]

theorem emits_place_deref {operand : Expr}
    : (place f (.deref operand)).Emits g ls g' () ↔ (value f operand).Emits g ls g' () := by
  rw [place]

/-- Only a variable and a dereferenced expression have a place. -/
theorem place_emits_cases {e : Expr} (h : (place f e).Emits g ls g' ())
    : (∃ id, e = .var id) ∨ ∃ operand, e = .deref operand := by
  cases e with
  | var id => exact Or.inl ⟨id, rfl⟩
  | deref operand => exact Or.inr ⟨operand, rfl⟩
  | constant | binary | assign | addressOf | call => simp [place] at h

theorem emits_values_nil : (values f []).Emits g ls g' () ↔ ls = [] ∧ g' = g := by
  rw [values]
  exact Emits.iff_of_eq rfl

theorem emits_values_cons {e : Expr} {es : List Expr}
    : (values f (e :: es)).Emits g ls g' ()
      ↔ ∃ l₁ g₁ l₂, (value f e).Emits g l₁ g₁ () ∧ (values f es).Emits g₁ l₂ g' ()
          ∧ ls = l₁ ++ l₂ := by
  rw [values, emits_bind_unit]

mutual

/-- The code of an expression leaves one value and takes no label. -/
theorem value_state (e : Expr) {g g' : GenState} {ls : Listing}
    (h : (value f e).Emits g ls g' ())
    : g' = g.deeper 1 := by
  cases e with
  | constant => exact (emits_value_constant.mp h).2
  | var =>
      obtain ⟨_, _, _, left⟩ := emits_value_var.mp h
      exact left
  | binary op left right =>
      obtain ⟨_, g₁, _, g₂, first, second, -, rfl⟩ := emits_value_binary.mp h
      rw [value_state right second, value_state left first]
      simp
  | assign target source =>
      obtain ⟨-, _, g₁, _, g₂, first, second, -, rfl⟩ := emits_value_assign.mp h
      rw [value_state source second, place_state target first]
      simp
  | addressOf operand => exact place_state operand (emits_value_addressOf.mp h)
  | deref operand =>
      obtain ⟨_, first, -⟩ := emits_value_deref.mp h
      exact value_state operand first
  | call name arguments =>
      obtain ⟨-, _, g₁, first, -, rfl⟩ := emits_value_call.mp h
      rw [values_state arguments first, GenState.deeper_deeper]
      congr 1
      omega

/-- So does the code of a place. -/
theorem place_state (e : Expr) {g g' : GenState} {ls : Listing}
    (h : (place f e).Emits g ls g' ())
    : g' = g.deeper 1 := by
  cases e with
  | var =>
      obtain ⟨_, _, _, left⟩ := emits_place_var.mp h
      exact left
  | deref operand => exact value_state operand (emits_place_deref.mp h)
  | constant | binary | assign | addressOf | call => simp [place] at h

/-- The code of several expressions leaves a value for each. -/
theorem values_state (es : List Expr) {g g' : GenState} {ls : Listing}
    (h : (values f es).Emits g ls g' ())
    : g' = g.deeper es.length := by
  cases es with
  | nil =>
      obtain ⟨-, rfl⟩ := emits_values_nil.mp h
      simp
  | cons e es =>
      obtain ⟨_, g₁, _, first, rest, -⟩ := emits_values_cons.mp h
      rw [values_state es rest, value_state e first, GenState.deeper_deeper]
      congr 1
      simp only [List.length_cons]
      omega

end

-----------------------------------------------------------------------------------------
-- Statements
-----------------------------------------------------------------------------------------

theorem emits_jumpIfZero {l : Label}
    : (jumpIfZero l).Emits g ls g' () ↔ ls = Listing.jumpIfZero l ∧ g' = g.deeper (-1) :=
  Emits.iff_of_eq rfl

theorem emits_epilogue : epilogue.Emits g ls g' () ↔ ls = Listing.epilogue ∧ g' = g :=
  emits_lines

/-- An expression before a step that takes its value from the stack. -/
theorem emits_value_taken {e : Expr} {x : Emit Unit} {l : Listing}
    (takes : ∀ g ls g', x.Emits g ls g' () ↔ ls = l ∧ g' = g.deeper (-1))
    : (value f e >>= fun _ => x).Emits g ls g' ()
      ↔ ∃ l₁, (value f e).Emits g l₁ (g.deeper 1) () ∧ ls = l₁ ++ l ∧ g' = g := by
  simp only [emits_bind_unit, takes]
  constructor
  · rintro ⟨l₁, g₁, _, first, ⟨rfl, rfl⟩, rfl⟩
    obtain rfl := value_state e first
    exact ⟨l₁, first, rfl, by simp⟩
  · rintro ⟨l₁, first, rfl, rfl⟩
    exact ⟨l₁, _, _, first, ⟨rfl, by simp⟩, rfl⟩

theorem emits_effect_none : (effect f none).Emits g ls g' () ↔ ls = [] ∧ g' = g :=
  Emits.iff_of_eq rfl

theorem emits_effect_some {e : Expr}
    : (effect f (some e)).Emits g ls g' ()
      ↔ ∃ l₁, (value f e).Emits g l₁ (g.deeper 1) () ∧ ls = l₁ ++ [.instr (.pop .rax)]
          ∧ g' = g :=
  emits_value_taken fun _ _ _ => emits_pop

theorem emits_leaveUnless_none {l : Label}
    : (leaveUnless f l none).Emits g ls g' () ↔ ls = [] ∧ g' = g :=
  Emits.iff_of_eq rfl

theorem emits_leaveUnless_some {l : Label} {e : Expr}
    : (leaveUnless f l (some e)).Emits g ls g' ()
      ↔ ∃ l₁, (value f e).Emits g l₁ (g.deeper 1) () ∧ ls = l₁ ++ Listing.jumpIfZero l
          ∧ g' = g :=
  emits_value_taken fun _ _ _ => emits_jumpIfZero

/-- An expression run for its effects leaves no value. -/
theorem effect_state {e : Option Expr} (h : (effect f e).Emits g ls g' ()) : g' = g := by
  cases e with
  | none => exact (emits_effect_none.mp h).2
  | some e =>
      obtain ⟨_, _, _, left⟩ := emits_effect_some.mp h
      exact left

/-- So does the test of a loop. -/
theorem leaveUnless_state {l : Label} {e : Option Expr}
    (h : (leaveUnless f l e).Emits g ls g' ())
    : g' = g := by
  cases e with
  | none => exact (emits_leaveUnless_none.mp h).2
  | some e =>
      obtain ⟨_, _, _, left⟩ := emits_leaveUnless_some.mp h
      exact left

theorem emits_stmt_expr {e : Expr}
    : (stmt f (.expr e)).Emits g ls g' () ↔ (value f e).Emits g ls g' () := by
  rw [stmt]

theorem emits_stmt_block {body : List Stmt}
    : (stmt f (.block body)).Emits g ls g' ()
      ↔ ∃ l₁ g₁, (stmts f body).Emits g l₁ g₁ () ∧ ls = l₁ ++ [.instr (.push (.reg .rax))]
          ∧ g' = g₁.deeper 1 := by
  simp only [stmt, emits_bind_unit, emits_push]
  constructor
  · rintro ⟨l₁, g₁, _, first, ⟨rfl, rfl⟩, rfl⟩
    exact ⟨l₁, g₁, first, rfl, rfl⟩
  · rintro ⟨l₁, g₁, first, rfl, rfl⟩
    exact ⟨l₁, g₁, _, first, ⟨rfl, rfl⟩, rfl⟩

theorem emits_stmt_ret {e : Expr}
    : (stmt f (.ret e)).Emits g ls g' ()
      ↔ ∃ l₁, (value f e).Emits g l₁ (g.deeper 1) ()
          ∧ ls = l₁ ++ ([.instr (.pop .rax)] ++ Listing.epilogue) ∧ g' = g.deeper 1 := by
  simp only [stmt, emits_bind_unit, emits_pop, emits_epilogue, emits_shiftDepth]
  constructor
  · rintro ⟨l₁, g₁, _, first, ⟨_, _, _, ⟨rfl, rfl⟩, ⟨_, _, _, ⟨rfl, rfl⟩, ⟨rfl, rfl⟩, rfl⟩,
      rfl⟩, rfl⟩
    obtain rfl := value_state e first
    exact ⟨l₁, first, rfl, by simp [GenState.deeper]⟩
  · rintro ⟨l₁, first, rfl, rfl⟩
    exact ⟨l₁, _, _, first, ⟨_, _, _, ⟨rfl, rfl⟩, ⟨_, _, _, ⟨rfl, rfl⟩,
      ⟨rfl, by simp [GenState.deeper]⟩, rfl⟩, rfl⟩, rfl⟩

theorem emits_stmt_declare {id : Nat}
    : (stmt f (.declare id)).Emits g ls g' ()
      ↔ ls = [.instr (.push (.imm 0))] ∧ g' = g.deeper 1 := by
  rw [stmt]
  exact emits_push

/-- Code of the other branch of a conditional statement, which is zero if it is absent. -/
def alternative (f : Function) : Option Stmt → Emit Unit
  | some s => stmt f s
  | none => push (.imm 0)

theorem stmt_branch_eq (f : Function) (condition : Expr) (whenTrue : Stmt)
    (whenFalse : Option Stmt)
    : stmt f (.branch condition whenTrue whenFalse) = (do
        let id ← freshLabel
        value f condition
        jumpIfZero (.otherwise id)
        let entry ← depth
        stmt f whenTrue
        instr (.jmp (.finish id))
        label (.otherwise id)
        setDepth entry
        alternative f whenFalse
        label (.finish id)) := by
  cases whenFalse with
  | none => simp only [stmt, alternative]
  | some s => simp only [stmt, alternative]

theorem emits_stmt_branch {condition : Expr} {whenTrue : Stmt} {whenFalse : Option Stmt}
    : (stmt f (.branch condition whenTrue whenFalse)).Emits g ls g' ()
      ↔ ∃ l₁ l₂ g₂ l₃,
          (value f condition).Emits ⟨g.nextLabel + 1, g.depth⟩ l₁
            ⟨g.nextLabel + 1, g.depth + 1⟩ ()
          ∧ (stmt f whenTrue).Emits ⟨g.nextLabel + 1, g.depth⟩ l₂ g₂ ()
          ∧ (alternative f whenFalse).Emits ⟨g₂.nextLabel, g.depth⟩ l₃ g' ()
          ∧ ls = Listing.branch g.nextLabel l₁ l₂ l₃ := by
  simp only [stmt_branch_eq, emits_freshLabel_bind, emits_bind_unit, emits_jumpIfZero,
    emits_depth_bind, emits_instr, emits_label, emits_setDepth]
  have back : (GenState.deeper ⟨g.nextLabel + 1, g.depth + 1⟩ (-1))
      = ⟨g.nextLabel + 1, g.depth⟩ := by
    simp only [GenState.deeper, GenState.mk.injEq, true_and]
    omega
  constructor
  · rintro ⟨l₁, g₁, _, first, ⟨_, _, _, ⟨rfl, rfl⟩, ⟨l₂, g₂, _, second, ⟨_, _, _, ⟨rfl, rfl⟩,
      ⟨_, _, _, ⟨rfl, rfl⟩, ⟨_, _, _, ⟨rfl, rfl⟩, ⟨l₃, _, _, third, ⟨rfl, rfl⟩, rfl⟩, rfl⟩,
      rfl⟩, rfl⟩, rfl⟩, rfl⟩, rfl⟩
    obtain rfl := value_state condition first
    rw [show (⟨g.nextLabel + 1, g.depth⟩ : GenState).deeper 1
      = ⟨g.nextLabel + 1, g.depth + 1⟩ from rfl] at first second third
    rw [back] at second third
    exact ⟨l₁, l₂, _, l₃, first, second, third, by simp [Listing.branch]⟩
  · rintro ⟨l₁, l₂, g₂, l₃, first, second, third, rfl⟩
    refine ⟨l₁, _, _, first, ⟨_, _, _, ⟨rfl, rfl⟩, ⟨l₂, g₂, _, by rwa [back],
      ⟨_, _, _, ⟨rfl, rfl⟩, ⟨_, _, _, ⟨rfl, rfl⟩, ⟨_, _, _, ⟨rfl, rfl⟩,
        ⟨l₃, _, _, by rwa [back], ⟨rfl, rfl⟩, rfl⟩, rfl⟩, rfl⟩, rfl⟩, rfl⟩, rfl⟩,
        by simp [Listing.branch]⟩

/-- The part of a loop that is repeated, with the labels around it. -/
def repetition (f : Function) (id : Nat) (condition step : Option Expr) (body : Stmt)
    : Emit Unit := do
  label (.start id)
  leaveUnless f (.finish id) condition
  stmt f body
  pop .rax
  effect f step
  instr (.jmp (.start id))
  label (.finish id)

theorem emits_repetition {id : Nat} {condition step : Option Expr} {body : Stmt}
    : (repetition f id condition step body).Emits g ls g' ()
      ↔ ∃ l₁ l₂ g₂ l₃,
          (leaveUnless f (.finish id) condition).Emits g l₁ g ()
          ∧ (stmt f body).Emits g l₂ g₂ ()
          ∧ (effect f step).Emits (g₂.deeper (-1)) l₃ (g₂.deeper (-1)) ()
          ∧ ls = Listing.repetition id l₁ l₂ l₃
          ∧ g' = g₂.deeper (-1) := by
  simp only [repetition, emits_bind_unit, emits_label, emits_pop, emits_instr]
  constructor
  · rintro ⟨_, _, _, ⟨rfl, rfl⟩, ⟨l₁, g₁, _, first, ⟨l₂, g₂, _, second, ⟨_, _, _, ⟨rfl, rfl⟩,
      ⟨l₃, g₃, _, third, ⟨_, _, _, ⟨rfl, rfl⟩, ⟨rfl, rfl⟩, rfl⟩, rfl⟩, rfl⟩, rfl⟩, rfl⟩, rfl⟩
    obtain rfl := leaveUnless_state first
    obtain rfl := effect_state third
    exact ⟨l₁, l₂, g₂, l₃, first, second, third, by simp [Listing.repetition], rfl⟩
  · rintro ⟨l₁, l₂, g₂, l₃, first, second, third, rfl, rfl⟩
    exact ⟨_, _, _, ⟨rfl, rfl⟩, ⟨l₁, g, _, first, ⟨l₂, g₂, _, second, ⟨_, _, _, ⟨rfl, rfl⟩,
      ⟨l₃, _, _, third, ⟨_, _, _, ⟨rfl, rfl⟩, ⟨rfl, rfl⟩, rfl⟩, rfl⟩, rfl⟩, rfl⟩, rfl⟩,
      by simp [Listing.repetition]⟩

theorem stmt_forLoop_eq (f : Function) (start condition step : Option Expr) (body : Stmt)
    : stmt f (.forLoop start condition step body) = (do
        let id ← freshLabel
        effect f start
        repetition f id condition step body
        push (.imm 0)) := by
  simp only [stmt, repetition, bind_assoc]

/-- A loop with a condition only is one whose other parts are absent. -/
theorem stmt_whileLoop_eq (f : Function) (condition : Expr) (body : Stmt)
    : stmt f (.whileLoop condition body)
      = stmt f (.forLoop none (some condition) none body) := by
  simp only [stmt, effect, pure_bind]

theorem emits_stmt_forLoop {start condition step : Option Expr} {body : Stmt}
    : (stmt f (.forLoop start condition step body)).Emits g ls g' ()
      ↔ ∃ l₀ l₁ g₁,
          (effect f start).Emits ⟨g.nextLabel + 1, g.depth⟩ l₀ ⟨g.nextLabel + 1, g.depth⟩ ()
          ∧ (repetition f g.nextLabel condition step body).Emits ⟨g.nextLabel + 1, g.depth⟩
              l₁ g₁ ()
          ∧ ls = l₀ ++ (l₁ ++ [.instr (.push (.imm 0))]) ∧ g' = g₁.deeper 1 := by
  simp only [stmt_forLoop_eq, emits_freshLabel_bind, emits_bind_unit, emits_push]
  constructor
  · rintro ⟨l₀, g₀, _, zeroth, ⟨l₁, g₁, _, first, ⟨rfl, rfl⟩, rfl⟩, rfl⟩
    obtain rfl := effect_state zeroth
    exact ⟨l₀, l₁, g₁, zeroth, first, rfl, rfl⟩
  · rintro ⟨l₀, l₁, g₁, zeroth, first, rfl, rfl⟩
    exact ⟨l₀, _, _, zeroth, ⟨l₁, g₁, _, first, ⟨rfl, rfl⟩, rfl⟩, rfl⟩

/-- The code of a loop leaves one value if that of its body does. -/
theorem forLoop_state {start condition step : Option Expr} {body : Stmt}
    (h : (stmt f (.forLoop start condition step body)).Emits g ls g' ())
    (inner : ∀ {g₁ g₂ l₂}, (stmt f body).Emits g₁ l₂ g₂ () → g₂.depth = g₁.depth + 1)
    : g'.depth = g.depth + 1 := by
  obtain ⟨_, _, _, -, repeated, -, rfl⟩ := emits_stmt_forLoop.mp h
  obtain ⟨_, _, g₂, _, -, second, -, -, rfl⟩ := emits_repetition.mp repeated
  have raised := inner second
  simp only [GenState.deeper_deeper, GenState.deeper_depth] at raised ⊢
  omega

theorem emits_stmts_nil : (stmts f []).Emits g ls g' () ↔ ls = [] ∧ g' = g := by
  rw [stmts]
  exact Emits.iff_of_eq rfl

theorem emits_stmts_cons {s : Stmt} {ss : List Stmt}
    : (stmts f (s :: ss)).Emits g ls g' ()
      ↔ ∃ l₁ g₁ l₂, (stmt f s).Emits g l₁ g₁ ()
          ∧ (stmts f ss).Emits (g₁.deeper (-1)) l₂ g' ()
          ∧ ls = l₁ ++ ([.instr (.pop .rax)] ++ l₂) := by
  simp only [stmts, emits_bind_unit, emits_pop]
  constructor
  · rintro ⟨l₁, g₁, _, first, ⟨_, _, l₂, ⟨rfl, rfl⟩, second, rfl⟩, rfl⟩
    exact ⟨l₁, g₁, l₂, first, second, rfl⟩
  · rintro ⟨l₁, g₁, l₂, first, second, rfl⟩
    exact ⟨l₁, g₁, _, first, ⟨_, _, l₂, ⟨rfl, rfl⟩, second, rfl⟩, rfl⟩

mutual

/-- The code of a statement leaves one value. -/
theorem stmt_state (s : Stmt) {g g' : GenState} {ls : Listing}
    (h : (stmt f s).Emits g ls g' ())
    : g'.depth = g.depth + 1 := by
  cases s with
  | expr e =>
      obtain rfl := value_state e (emits_stmt_expr.mp h)
      rfl
  | block body =>
      obtain ⟨_, g₁, first, -, rfl⟩ := emits_stmt_block.mp h
      rw [GenState.deeper_depth, stmts_state body first]
  | branch condition whenTrue whenFalse =>
      obtain ⟨_, _, g₂, _, -, -, third, -⟩ := emits_stmt_branch.mp h
      cases whenFalse with
      | none =>
          obtain ⟨-, rfl⟩ := emits_push.mp third
          rfl
      | some s =>
          have no := stmt_state s third
          exact no
  | whileLoop condition body =>
      rw [stmt_whileLoop_eq] at h
      exact forLoop_state h (stmt_state body)
  | forLoop start condition step body => exact forLoop_state h (stmt_state body)
  | ret e =>
      obtain ⟨_, -, -, rfl⟩ := emits_stmt_ret.mp h
      rfl
  | declare id =>
      obtain ⟨-, rfl⟩ := emits_stmt_declare.mp h
      rfl

/-- The code of statements leaves no value. -/
theorem stmts_state (ss : List Stmt) {g g' : GenState} {ls : Listing}
    (h : (stmts f ss).Emits g ls g' ())
    : g'.depth = g.depth := by
  cases ss with
  | nil =>
      obtain ⟨-, rfl⟩ := emits_stmts_nil.mp h
      rfl
  | cons s ss =>
      obtain ⟨_, g₁, _, first, second, -⟩ := emits_stmts_cons.mp h
      have head := stmt_state s first
      have tail := stmts_state ss second
      rw [GenState.deeper_depth] at tail
      omega

end

end Emit

end SlotC
