import SlotC.Proofs.Machine.Pieces

/-! The code of an expression against its meaning. The code leaves the value on top of the
stack, makes the calls of the expression in order with the arguments in their registers,
and changes nothing above the stack but the variables.
-/

namespace SlotC

mutual

/-- The most words that the code of an expression has on the stack at a time. -/
def Expr.room : Expr → Nat
  | .constant _ | .var _ => 1
  | .binary _ left right => max left.room (right.room + 1)
  | .assign target source => max target.room (source.room + 1)
  | .addressOf operand | .deref operand => operand.room
  | .call _ arguments => max 1 (roomAll arguments)

/-- The same for expressions whose values are all kept. -/
def roomAll : List Expr → Nat
  | [] => 0
  | e :: es => max e.room (roomAll es + 1)

end

/-- The code of an expression leaves at least its value. -/
theorem Expr.room_pos : (e : Expr) → 0 < e.room
  | .constant _ | .var _ => Nat.zero_lt_one
  | .binary _ left _ => Nat.lt_of_lt_of_le left.room_pos (Nat.le_max_left _ _)
  | .assign target _ => Nat.lt_of_lt_of_le target.room_pos (Nat.le_max_left _ _)
  | .addressOf operand | .deref operand => operand.room_pos
  | .call _ _ => Nat.lt_of_lt_of_le Nat.zero_lt_one (Nat.le_max_left _ _)

/-- The machine makes the call of the source text: the same function, with the arguments in
the first of the argument registers.
-/
def Call.MadeBy (source machine : Call) : Prop :=
  machine.name = source.name ∧ source.arguments <+: machine.arguments

/-- The machine is where the source text is: at the same base, with the same variables, the
same answers ahead and the same calls behind.
-/
structure Agrees (f : Function) (base : Word) (s : Store) (m : Machine) : Prop where
  rbp : m.registers .rbp = base
  memory : ∀ place, f.Owns base place → m.memory place = s.memory place
  answers : m.answers = s.answers
  calls : List.Forall₂ Call.MadeBy s.calls m.calls

/-- All variables lie at the address or above it. -/
def Function.Above (f : Function) (base low : Word) : Prop :=
  ∀ place, f.Owns base place → low ≤ place

/-- From one state to the other the machine came to agree with the source text and left so
many words on the stack. Above the stack nothing but the variables has changed.
-/
structure Leaves (f : Function) (base : Word) (s : Store) (count : Nat) (m m' : Machine)
    : Prop where
  agrees : Agrees f base s m'
  rsp : m'.registers .rsp = m.registers .rsp - .ofNat 64 (8 * count)
  kept : ∀ place, m.registers .rsp ≤ place → ¬ f.Owns base place
    → m'.memory place = m.memory place

/-- The addresses that a called function may write besides the stack. -/
def Function.exposed (f : Function) (base : Word) : Word → Bool :=
  fun place => decide (f.Owns base place)

section

variable {f : Function} {base : Word} {s s' : Store} {m m₁ m₂ : Machine} {count more : Nat}

theorem Agrees.leaves (agree : Agrees f base s m) : Leaves f base s 0 m m :=
  ⟨agree, by simp, fun _ _ _ => rfl⟩

-----------------------------------------------------------------------------------------
-- Steps that keep the machine in agreement
-----------------------------------------------------------------------------------------

/-- Only the stack, the base, the memory and the calls matter. -/
theorem Leaves.alike (h : Leaves f base s count m m₁) (alike : m₁.Alike m₂)
    : Leaves f base s count m m₂ := by
  refine ⟨⟨?_, ?_, ?_, ?_⟩, ?_, ?_⟩
  · rw [alike.rbp]
    exact h.agrees.rbp
  · rw [alike.memory]
    exact h.agrees.memory
  · rw [alike.answers]
    exact h.agrees.answers
  · rw [alike.calls]
    exact h.agrees.calls
  · rw [alike.rsp]
    exact h.rsp
  · rw [alike.memory]
    exact h.kept

/-- One part after another leaves the words of both. -/
theorem Leaves.trans (first : Leaves f base s count m m₁) (second : Leaves f base s' more m₁ m₂)
    (room : 8 * count ≤ (m.registers .rsp).toNat)
    : Leaves f base s' (count + more) m m₂ := by
  refine ⟨second.agrees, ?_, ?_⟩
  · rw [second.rsp, first.rsp, Nat.mul_add, BitVec.ofNat_add]
    bv_omega
  · intro place above hidden
    have lower : m₁.registers .rsp ≤ place := by
      rw [first.rsp]
      bv_omega
    rw [second.kept place lower hidden, first.kept place above hidden]

/-- Dropping the topmost word leaves one word less. -/
theorem Leaves.drop (h : Leaves f base s (count + 1) m m₁) : Leaves f base s count m m₁.drop := by
  refine ⟨⟨?_, h.agrees.memory, h.agrees.answers, h.agrees.calls⟩, ?_, h.kept⟩
  · exact h.agrees.rbp
  · simp only [Machine.drop, Machine.registers_set, if_true, h.rsp, Nat.mul_succ,
      BitVec.ofNat_add]
    bv_omega

/-- A push below all variables leaves one word more, the one that was pushed. -/
theorem Leaves.push (h : Leaves f base s count m m₁) (above : f.Above base (m.registers .rsp))
    (room : 8 * (count + 1) ≤ (m.registers .rsp).toNat) (value : Word)
    : Leaves f base s (count + 1) m (m₁.push value) ∧ (m₁.push value).top = value := by
  have outside {place : Word} (high : m.registers .rsp ≤ place)
      : (m₁.push value).memory place = m₁.memory place := by
    apply Memory.writeWord_outside
    rw [h.rsp]
    bv_omega
  refine ⟨⟨⟨h.agrees.rbp, ?_, h.agrees.answers, h.agrees.calls⟩, ?_, ?_⟩, ?_⟩
  · intro place owned
    rw [outside (above place owned)]
    exact h.agrees.memory place owned
  · simp only [Machine.push, Machine.registers_set, if_true, h.rsp, Nat.mul_succ,
      BitVec.ofNat_add]
    bv_omega
  · intro place high hidden
    rw [outside high]
    exact h.kept place high hidden
  · exact Memory.readWord_writeWord _ _ _

/-- The stack pointer after words were left, as long as there was room for them. -/
theorem Leaves.toNat_rsp (h : Leaves f base s count m m₁)
    (room : 8 * count ≤ (m.registers .rsp).toNat)
    : (m₁.registers .rsp).toNat = (m.registers .rsp).toNat - 8 * count := by
  rw [h.rsp]
  bv_omega

/-- The variables stay above a stack that grows. -/
theorem Leaves.above (h : Leaves f base s count m m₁) (above : f.Above base (m.registers .rsp))
    (room : 8 * count ≤ (m.registers .rsp).toNat)
    : f.Above base (m₁.registers .rsp) := by
  intro place owned
  have := above place owned
  have := h.toNat_rsp room
  bv_omega

/-- Words on the stack below all variables stay while more words are left on it. -/
theorem Leaves.stacked (first : Leaves f base s count m m₁)
    (second : Leaves f base s' more m₁ m₂) (above : f.Above base (m.registers .rsp))
    (room : 8 * count ≤ (m.registers .rsp).toNat) (words : List Word)
    (few : words.length ≤ count)
    (stacked : Machine.Stacked m₁.memory (m₁.registers .rsp) words)
    : Machine.Stacked m₂.memory (m₁.registers .rsp) words := by
  have height := first.toNat_rsp room
  have bound := (m.registers .rsp).isLt
  refine Machine.stacked_congr (by omega) ?_ stacked
  intro place low high
  symm
  apply second.kept place low
  intro owned
  have := above place owned
  bv_omega

/-- The value left first lies under the value left after it. -/
theorem Leaves.under (first : Leaves f base s 1 m m₁) (second : Leaves f base s' 1 m₁ m₂)
    (above : f.Above base (m.registers .rsp)) (room : 8 ≤ (m.registers .rsp).toNat)
    : m₂.drop.top = m₁.top := by
  have stacked := first.stacked second above room [m₁.top] (by simp) ⟨rfl, trivial⟩
  have place : m₂.drop.registers .rsp = m₁.registers .rsp := by
    simp only [Machine.drop, Machine.registers_set, if_true, second.rsp]
    bv_omega
  rw [Machine.top, place]
  exact stacked.1

-----------------------------------------------------------------------------------------
-- Variables and calls
-----------------------------------------------------------------------------------------

/-- Every byte of a variable's word belongs to the variable. -/
theorem Function.HasSlot.owns {place : Word} (slot : f.HasSlot base place) {i : Nat}
    (below : i < 8)
    : f.Owns base (place + .ofNat 64 i) := by
  obtain ⟨v, declared, j, inside, rfl⟩ := slot
  exact ⟨v, declared, j, inside, i, below, rfl⟩

/-- A byte less than a word above the address of a variable's word belongs to the variable. -/
theorem Function.HasSlot.owns_of_lt {place x : Word} (slot : f.HasSlot base place)
    (inside : (x - place).toNat < 8)
    : f.Owns base x := by
  have split : x = place + .ofNat 64 (x - place).toNat := by
    rw [BitVec.ofNat_toNat, BitVec.setWidth_eq]
    bv_omega
  rw [split]
  exact slot.owns inside

/-- A variable has its own word. -/
theorem Function.hasSlot_address {v : Variable} (declared : v ∈ f.locals)
    : f.HasSlot base (v.address base) :=
  ⟨v, declared, 0, Nat.lt_of_lt_of_le Nat.zero_lt_one (Nat.le_max_left 1 _), by simp⟩

/-- The variables lie above an address if each of them does and none passes the end of
memory.
-/
theorem Function.above_of_le {low : Word}
    (fits : ∀ v ∈ f.locals, low ≤ v.address base
      ∧ (v.address base).toNat + 8 * v.slots ≤ 2 ^ 64)
    : f.Above base low := by
  rintro place ⟨v, declared, j, inside, i, below, rfl⟩
  obtain ⟨least, most⟩ := fits v declared
  bv_omega

/-- The machine reads a variable as the source text does. -/
theorem Agrees.readWord (agree : Agrees f base s m) {place value : Word}
    (loaded : s.load? f base place = some value)
    : m.memory.readWord place = value := by
  simp only [Store.load?, Option.ite_none_right_eq_some, Option.some.injEq] at loaded
  obtain ⟨slot, rfl⟩ := loaded
  apply Memory.readWord_congr
  intro i below
  exact agree.memory _ (slot.owns below)

/-- The machine writes a variable as the source text does. -/
theorem Leaves.store (h : Leaves f base s count m m₁) {place value : Word}
    (stored : s.store? f base place value = some s')
    : Leaves f base s' count m { m₁ with memory := m₁.memory.writeWord place value } := by
  simp only [Store.store?, Option.ite_none_right_eq_some, Option.some.injEq] at stored
  obtain ⟨slot, rfl⟩ := stored
  refine ⟨⟨h.agrees.rbp, ?_, h.agrees.answers, h.agrees.calls⟩, h.rsp, ?_⟩
  · intro x owned
    exact Memory.writeWord_congr (h.agrees.memory x owned)
  · intro x above hidden
    rw [← h.kept x above hidden]
    exact Memory.writeWord_outside fun inside => hidden (slot.owns_of_lt inside)

/-- The words of the arguments go to the first argument registers. -/
theorem Leaves.popAll (h : Leaves f base s count m m₁) {words : List Word}
    (few : count ≤ Register.forArguments.length) (length : words.length = count)
    (stacked : Machine.Stacked m₁.memory (m₁.registers .rsp) words.reverse)
    : ∃ m₂, m₁.run (f.exposed base) (Listing.popAll (Register.forArguments.take count).reverse)
          = some m₂
        ∧ Leaves f base s 0 m m₂ ∧ words <+: Register.forArguments.map m₂.registers := by
  have plain : ∀ r ∈ Register.forArguments, r ≠ .al ∧ r ≠ .rsp ∧ r ≠ .rbp := by decide
  have distinct : Register.forArguments.Nodup := by decide
  have taken : (Register.forArguments.take count).length = count := List.length_take_of_le few
  have kept : ∀ r ∈ (Register.forArguments.take count).reverse, r ≠ .al ∧ r ≠ .rsp ∧ r ≠ .rbp :=
    fun r member => plain r (List.mem_of_mem_take (List.mem_reverse.mp member))
  obtain ⟨m₂, run, popped, others, rsp, memory, answers, calls⟩ :=
    Machine.run_popAll (f.exposed base) m₁ (Register.forArguments.take count).reverse words.reverse
      kept (List.nodup_reverse.mpr (distinct.sublist (List.take_sublist _ _)))
      (by rw [List.length_reverse, List.length_reverse, taken, length]) stacked
  refine ⟨m₂, run, ⟨⟨?_, ?_, ?_, ?_⟩, ?_, ?_⟩, ?_⟩
  · rw [others .rbp (fun member => (kept _ member).2.2 rfl) (by decide)]
    exact h.agrees.rbp
  · rw [memory]
    exact h.agrees.memory
  · rw [answers]
    exact h.agrees.answers
  · rw [calls]
    exact h.agrees.calls
  · rw [rsp, h.rsp, List.length_reverse, taken]
    bv_omega
  · rw [memory]
    exact h.kept
  · rw [List.map_reverse, List.reverse_inj, List.map_take] at popped
    exact popped ▸ List.take_prefix _ _

/-- The machine comes back from a call as the source text does. -/
theorem Leaves.call (h : Leaves f base s 0 m m₁) {name : String} {answer : Answer}
    {answers : List Answer} {arguments : List Word} {value : Word}
    (called : s.call? name arguments = some (value, s'))
    (given : m₁.answers = answer :: answers)
    (returned : Machine.Returns (f.exposed base) name answer answers m₁ m₂)
    (passed : arguments <+: Register.forArguments.map m₁.registers)
    : Leaves f base s' 0 m m₂ ∧ m₂.registers .rax = value := by
  have source : s.answers = answer :: answers := h.agrees.answers ▸ given
  simp only [Store.call?, source, Option.some.injEq, Prod.mk.injEq] at called
  obtain ⟨rfl, rfl⟩ := called
  have height : m₁.registers .rsp = m.registers .rsp := by simpa using h.rsp
  refine ⟨⟨⟨?_, ?_, ?_, ?_⟩, ?_, ?_⟩, returned.rax⟩
  · rw [returned.rbp]
    exact h.agrees.rbp
  · intro place owned
    exact returned.shared place (decide_eq_true owned)
  · exact returned.answers
  · rw [returned.calls]
    exact List.rel_append h.agrees.calls (.cons ⟨rfl, passed⟩ .nil)
  · rw [returned.rsp]
    exact h.rsp
  · intro place above hidden
    rw [returned.kept place (height ▸ above) (by simpa [Function.exposed] using hidden)]
    exact h.kept place above hidden

/-- The machine scales the right operand as the source text does. -/
theorem scaled_pointerStep? (f : Function) (op : BinaryOp) (left : Expr) (value : Word)
    : Machine.scaled value (pointerStep? f op left) = f.inBytes op left value := by
  have step (v : Variable)
      : Machine.scaled value ((Option.filter Variable.isPointer (some v)).map
          Variable.pointeeSize)
        = if 0 < v.pointers then value * .ofNat 64 v.pointeeSize else value := by
    by_cases pointer : 0 < v.pointers
    · simp [Option.filter, Variable.isPointer, pointer, Machine.scaled]
    · simp [Option.filter, Variable.isPointer, pointer, Machine.scaled]
  cases left with
  | var id =>
      cases found : f.get? id with
      | none => cases op <;> simp [pointerStep?, Function.inBytes, found, Machine.scaled,
          BinaryOp.isAdditive]
      | some v =>
          cases op with
          | add | subtract =>
              simp only [pointerStep?, Function.inBytes, found, BinaryOp.isAdditive, if_true, step]
          | multiply | divide | equal | notEqual | less | lessEqual => rfl
  | constant | binary | assign | addressOf | deref | call =>
      cases op <;> rfl

end

mutual

/-- Running the code of an expression leaves its value. -/
theorem value_runs (f : Function) (base : Word) (e : Expr) {g g' : GenState} {ls : Listing}
    {s s' : Store} {value : Word} {m : Machine} (code : (Emit.value f e).Emits g ls g' ())
    (defined : e.eval f base s = some (value, s')) (agree : Agrees f base s m)
    (above : f.Above base (m.registers .rsp)) (room : 8 * e.room ≤ (m.registers .rsp).toNat)
    : ∃ m', m.run (f.exposed base) ls = some m' ∧ Leaves f base s' 1 m m' ∧ m'.top = value := by
  cases e with
  | constant number =>
      obtain ⟨rfl, -⟩ := Emit.emits_value_constant.mp code
      cases defined
      obtain ⟨m₁, alike, run⟩ := Machine.run_pushConstant (f.exposed base) m number
      exact ⟨_, run, (agree.leaves.alike alike).push above room _⟩
  | var id =>
      obtain ⟨v, found, rfl, -⟩ := Emit.emits_value_var.mp code
      simp only [Expr.eval, found, Option.bind_eq_bind, Option.bind_some] at defined
      obtain ⟨m₁, alike, run⟩ := Machine.run_pushAddress (f.exposed base) m v
      rw [agree.rbp] at run
      obtain ⟨leaves, top⟩ := (agree.leaves.alike alike).push above room (v.address base)
      cases array : v.isArray with
      | true =>
          simp only [array, if_true, Option.some.injEq, Prod.mk.injEq] at defined
          obtain ⟨rfl, rfl⟩ := defined
          exact ⟨_, by simpa using run, leaves, top⟩
      | false =>
          simp only [array, Bool.false_eq_true, if_false, Option.bind_eq_some_iff,
            Option.some.injEq, Prod.mk.injEq] at defined
          obtain ⟨_, loaded, rfl, rfl⟩ := defined
          obtain ⟨m₂, alike₂, run₂⟩ := Machine.run_load (f.exposed base)
            (m₁.push (v.address base))
          rw [top, leaves.agrees.readWord loaded] at run₂
          exact ⟨_, Machine.run_append_of_run run (by simpa using run₂),
            (leaves.drop.alike alike₂).push above room _⟩
  | binary op left right =>
      obtain ⟨l₁, g₁, l₂, g₂, first, second, rfl, -⟩ := Emit.emits_value_binary.mp code
      simp only [Expr.eval, Option.bind_eq_bind, Option.bind_eq_some_iff, Prod.exists,
        Option.some.injEq, Prod.mk.injEq] at defined
      obtain ⟨a, s₁, evalLeft, b, s₂, evalRight, _, applied, rfl, rfl⟩ := defined
      simp only [Expr.room] at room
      obtain ⟨m₁, run₁, leaves₁, top₁⟩ := value_runs f base left first evalLeft agree above
        (by omega)
      have height := leaves₁.toNat_rsp (by omega)
      obtain ⟨m₂, run₂, leaves₂, top₂⟩ := value_runs f base right second evalRight
        leaves₁.agrees (leaves₁.above above (by omega)) (by omega)
      have under := leaves₁.under leaves₂ above (by omega)
      have both := leaves₁.trans leaves₂ (by omega)
      rw [← scaled_pointerStep?, ← top₂, ← top₁, ← under] at applied
      obtain ⟨m₃, alike, run₃⟩ := Machine.run_operate (f.exposed base) m₂ applied
      exact ⟨_, Machine.run_append_of_run run₁ (Machine.run_append_of_run run₂ run₃),
        (both.drop.drop.alike alike).push above (by omega) _⟩
  | assign target source =>
      obtain ⟨-, l₁, g₁, l₂, g₂, first, second, rfl, -⟩ := Emit.emits_value_assign.mp code
      simp only [Expr.eval, Option.bind_eq_bind, Option.bind_eq_some_iff, Prod.exists,
        Option.some.injEq, Prod.mk.injEq] at defined
      obtain ⟨place, s₁, evalTarget, _, s₂, evalSource, _, stored, rfl, rfl⟩ := defined
      simp only [Expr.room] at room
      obtain ⟨m₁, run₁, leaves₁, top₁⟩ := place_runs f base target first evalTarget agree above
        (by omega)
      have height := leaves₁.toNat_rsp (by omega)
      obtain ⟨m₂, run₂, leaves₂, top₂⟩ := value_runs f base source second evalSource
        leaves₁.agrees (leaves₁.above above (by omega)) (by omega)
      have under := leaves₁.under leaves₂ above (by omega)
      have both := leaves₁.trans leaves₂ (by omega)
      obtain ⟨m₃, alike, run₃⟩ := Machine.run_store (f.exposed base) m₂
      rw [under, top₁, top₂] at alike
      rw [top₂] at run₃
      exact ⟨_, Machine.run_append_of_run run₁ (Machine.run_append_of_run run₂ run₃),
        ((both.drop.drop.store stored).alike alike).push above (by omega) _⟩
  | addressOf operand =>
      exact place_runs f base operand (Emit.emits_value_addressOf.mp code) defined agree above
        room
  | deref operand =>
      obtain ⟨l₁, first, rfl⟩ := Emit.emits_value_deref.mp code
      simp only [Expr.eval, Option.bind_eq_bind, Option.bind_eq_some_iff, Prod.exists,
        Option.some.injEq, Prod.mk.injEq] at defined
      obtain ⟨place, s₁, evalOperand, _, loaded, rfl, rfl⟩ := defined
      simp only [Expr.room] at room
      have atLeast := operand.room_pos
      obtain ⟨m₁, run₁, leaves₁, top₁⟩ := value_runs f base operand first evalOperand agree
        above room
      obtain ⟨m₂, alike, run₂⟩ := Machine.run_load (f.exposed base) m₁
      rw [top₁, leaves₁.agrees.readWord loaded] at run₂
      exact ⟨_, Machine.run_append_of_run run₁ run₂,
        (leaves₁.drop.alike alike).push above (by omega) _⟩
  | call name arguments =>
      obtain ⟨few, l₁, g₁, first, rfl, -⟩ := Emit.emits_value_call.mp code
      simp only [Expr.eval, Option.bind_eq_bind, Option.bind_eq_some_iff, Prod.exists]
        at defined
      obtain ⟨words, s₁, evalArguments, called⟩ := defined
      simp only [Expr.room] at room
      obtain ⟨m₁, run₁, leaves₁, length, stacked⟩ := values_run f base arguments first
        evalArguments agree above (by omega)
      obtain ⟨m₂, run₂, leaves₂, passed⟩ := leaves₁.popAll few length stacked
      have height := leaves₂.toNat_rsp (by omega)
      cases given : s₁.answers with
      | nil => simp [Store.call?, given] at called
      | cons answer answers =>
          have given : m₂.answers = answer :: answers := leaves₂.agrees.answers.trans given
          obtain ⟨m₃, run₃, returned⟩ := Machine.run_alignedCall (f.exposed base) m₂
            (g₁.depth - arguments.length) name given (by omega)
          obtain ⟨leaves₃, rax⟩ := leaves₂.call called given returned passed
          have run₄ : m₃.run (f.exposed base) [.instr (.push (.reg .rax))]
              = some (m₃.push value) := rax ▸ rfl
          exact ⟨_, Machine.run_append_of_run run₁ (Machine.run_append_of_run
            (Machine.run_append_of_run run₂ run₃) run₄), leaves₃.push above (by omega) _⟩

/-- Running the code of a place leaves its address. -/
theorem place_runs (f : Function) (base : Word) (e : Expr) {g g' : GenState} {ls : Listing}
    {s s' : Store} {place : Word} {m : Machine} (code : (Emit.place f e).Emits g ls g' ())
    (defined : e.place f base s = some (place, s')) (agree : Agrees f base s m)
    (above : f.Above base (m.registers .rsp)) (room : 8 * e.room ≤ (m.registers .rsp).toNat)
    : ∃ m', m.run (f.exposed base) ls = some m' ∧ Leaves f base s' 1 m m' ∧ m'.top = place := by
  cases e with
  | var id =>
      obtain ⟨v, found, rfl, -⟩ := Emit.emits_place_var.mp code
      simp only [Expr.place, found, Option.bind_eq_bind, Option.bind_some, Option.some.injEq,
        Prod.mk.injEq] at defined
      obtain ⟨rfl, rfl⟩ := defined
      obtain ⟨m₁, alike, run⟩ := Machine.run_pushAddress (f.exposed base) m v
      rw [agree.rbp] at run
      exact ⟨_, run, (agree.leaves.alike alike).push above room _⟩
  | deref operand =>
      exact value_runs f base operand (Emit.emits_place_deref.mp code) defined agree above room
  | constant | binary | assign | addressOf | call => simp [Emit.place] at code

/-- Running the code of several expressions leaves their values, the last on top. -/
theorem values_run (f : Function) (base : Word) (es : List Expr) {g g' : GenState}
    {ls : Listing} {s s' : Store} {words : List Word} {m : Machine}
    (code : (Emit.values f es).Emits g ls g' ())
    (defined : evalAll f base es s = some (words, s')) (agree : Agrees f base s m)
    (above : f.Above base (m.registers .rsp)) (room : 8 * roomAll es ≤ (m.registers .rsp).toNat)
    : ∃ m', m.run (f.exposed base) ls = some m' ∧ Leaves f base s' es.length m m'
        ∧ words.length = es.length
        ∧ Machine.Stacked m'.memory (m'.registers .rsp) words.reverse := by
  cases es with
  | nil =>
      obtain ⟨rfl, -⟩ := Emit.emits_values_nil.mp code
      cases defined
      exact ⟨m, rfl, agree.leaves, rfl, trivial⟩
  | cons e es =>
      obtain ⟨l₁, g₁, l₂, first, second, rfl⟩ := Emit.emits_values_cons.mp code
      simp only [evalAll, Option.bind_eq_bind, Option.bind_eq_some_iff, Prod.exists,
        Option.some.injEq, Prod.mk.injEq] at defined
      obtain ⟨value, s₁, evalFirst, rest, s₂, evalRest, rfl, rfl⟩ := defined
      simp only [roomAll] at room
      obtain ⟨m₁, run₁, leaves₁, top₁⟩ := value_runs f base e first evalFirst agree above
        (by omega)
      have height := leaves₁.toNat_rsp (by omega)
      obtain ⟨m₂, run₂, leaves₂, length, stacked⟩ := values_run f base es second evalRest
        leaves₁.agrees (leaves₁.above above (by omega)) (by omega)
      refine ⟨m₂, Machine.run_append_of_run run₁ run₂, ?_, ?_, ?_⟩
      · rw [List.length_cons, Nat.add_comm]
        exact leaves₁.trans leaves₂ (by omega)
      · rw [List.length_cons, List.length_cons, length]
      · rw [List.reverse_cons, Machine.stacked_append]
        have under : m₂.registers .rsp + .ofNat 64 (8 * rest.reverse.length)
            = m₁.registers .rsp := by
          rw [leaves₂.rsp, List.length_reverse, length]
          bv_omega
        rw [under]
        exact ⟨stacked, leaves₁.stacked leaves₂ above (by omega) [value] (by simp)
          ⟨top₁, trivial⟩⟩

end

/-- The call protocol of expressions. From every machine that agrees with the source text and
has its stack below the variables, the code makes the calls of the expression, in their
order and with their arguments in the argument registers, and leaves the value on top of a
stack that is otherwise as it was.
-/
theorem value_callProtocol (f : Function) (base : Word) (e : Expr) (g : GenState) (s s' : Store)
    (m : Machine) (value : Word) (generated : (Emit.value f e g).outcome = .ok ())
    (defined : e.eval f base s = some (value, s')) (agree : Agrees f base s m)
    (above : f.Above base (m.registers .rsp)) (room : 8 * e.room ≤ (m.registers .rsp).toNat)
    : (Emit.value f e g).state.depth = g.depth + 1
      ∧ ∃ m', m.run (f.exposed base) (Emit.value f e g).lines = some m'
          ∧ List.Forall₂ Call.MadeBy s'.calls m'.calls
          ∧ m'.answers = s'.answers
          ∧ m'.registers .rsp = m.registers .rsp - 8
          ∧ m'.registers .rbp = base
          ∧ m'.top = value
          ∧ (∀ place, m.registers .rsp ≤ place → ¬ f.Owns base place
              → m'.memory place = m.memory place)
          ∧ ∀ place, f.Owns base place → m'.memory place = s'.memory place := by
  have code := Emit.emits_of_outcome generated
  obtain ⟨m', run, leaves, top⟩ := value_runs f base e code defined agree above room
  refine ⟨?_, m', run, leaves.agrees.calls, leaves.agrees.answers, leaves.rsp,
    leaves.agrees.rbp, top, leaves.kept, leaves.agrees.memory⟩
  rw [Emit.value_state e code]
  rfl

/-- One variable and a call under a sum, at a depth that makes the code move the stack. -/
theorem value_callProtocol_nested
    : ∃ m', Machine.run (Function.exposed ⟨"f", 0, [⟨"x", .int, 8, 0, 0, none⟩], []⟩ 4096)
          ⟨fun r => if r = .rbp then 4096 else 4080, none, fun _ => 0,
            [⟨7, fun _ => 0, none, fun _ => 1⟩], []⟩
          (Emit.value ⟨"f", 0, [⟨"x", .int, 8, 0, 0, none⟩], []⟩
            (.binary .add (.constant 5) (.call "g" [.var 0, .constant 3])) ⟨0, 0⟩).lines
        = some m'
      ∧ List.Forall₂ Call.MadeBy [⟨"g", [0, 3]⟩] m'.calls
      ∧ m'.registers .rsp = 4072 ∧ m'.top = 12 := by
  obtain ⟨-, m', run, calls, -, rsp, -, top, -⟩ := value_callProtocol
    ⟨"f", 0, [⟨"x", .int, 8, 0, 0, none⟩], []⟩ 4096
    (.binary .add (.constant 5) (.call "g" [.var 0, .constant 3])) ⟨0, 0⟩
    ⟨fun _ => 0, [⟨7, fun _ => 0, none, fun _ => 1⟩], []⟩
    ⟨fun _ => 1, [], [⟨"g", [0, 3]⟩]⟩
    ⟨fun r => if r = .rbp then 4096 else 4080, none, fun _ => 0,
      [⟨7, fun _ => 0, none, fun _ => 1⟩], []⟩ 12
    (by with_unfolding_all rfl) (by with_unfolding_all rfl) ⟨rfl, fun _ _ => rfl, rfl, .nil⟩
    (Function.above_of_le (by decide)) (by decide)
  exact ⟨m', run, calls, rsp, top⟩

end SlotC
