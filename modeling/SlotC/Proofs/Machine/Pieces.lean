import SlotC.Proofs.Code.Shape
import SlotC.Proofs.Semantics.Expr

/-! What the fixed pieces of code do to the machine. Apart from the stack and the memory
they touch registers that hold nothing between pieces, so each piece is described up to
these.
-/

namespace SlotC

namespace Machine

variable {exposed : Word → Bool} {m m' : Machine}

-----------------------------------------------------------------------------------------
-- Registers and runs
-----------------------------------------------------------------------------------------

@[simp] theorem registers_set (m : Machine) (r : Register) (value : Word) (r' : Register)
    : (m.set r value).registers r' = if r' = r then value else m.registers r' :=
  rfl

@[simp] theorem memory_set (m : Machine) (r : Register) (value : Word)
    : (m.set r value).memory = m.memory :=
  rfl

/-- Lines in sequence run one part after the other. -/
theorem run_append (m : Machine) (first second : Listing)
    : m.run exposed (first ++ second)
      = (m.run exposed first).bind fun m => m.run exposed second := by
  induction first generalizing m with
  | nil => rfl
  | cons line first ih =>
      cases line with
      | directive | label =>
          simp only [List.cons_append, run]
          exact ih m
      | instr i =>
          simp only [List.cons_append, run, Option.bind_eq_bind]
          cases m.perform exposed i with
          | none => rfl
          | some next => exact ih next

/-- A run of two parts through a known middle. -/
theorem run_append_of_run {middle : Machine} {first second : Listing}
    (left : m.run exposed first = some middle)
    (right : middle.run exposed second = some m')
    : m.run exposed (first ++ second) = some m' := by
  rw [run_append, left]
  exact right

/-- The states differ only in registers that hold nothing between pieces of code. -/
structure Alike (m m' : Machine) : Prop where
  rsp : m'.registers .rsp = m.registers .rsp
  rbp : m'.registers .rbp = m.registers .rbp
  memory : m'.memory = m.memory
  answers : m'.answers = m.answers
  calls : m'.calls = m.calls

theorem Alike.refl (m : Machine) : Alike m m :=
  ⟨rfl, rfl, rfl, rfl, rfl⟩

/-- The state without the value on top of its stack. -/
def drop (m : Machine) : Machine :=
  m.set .rsp (m.registers .rsp + 8)

-----------------------------------------------------------------------------------------
-- Pieces
-----------------------------------------------------------------------------------------

theorem run_pushAddress (exposed : Word → Bool) (m : Machine) (v : Variable)
    : ∃ m', Alike m m'
        ∧ m.run exposed (Listing.pushAddress v)
          = some (m'.push (v.address (m.registers .rbp))) := by
  refine ⟨_, ?_, rfl⟩
  exact ⟨rfl, rfl, rfl, rfl, rfl⟩

theorem run_pushConstant (exposed : Word → Bool) (m : Machine) (value : Int64)
    : ∃ m', Alike m m'
        ∧ m.run exposed (Listing.pushConstant value) = some (m'.push value.toBitVec) := by
  have same : BitVec.ofInt 64 value.toInt = value.toBitVec := by
    rw [Int64.toInt, BitVec.ofInt_toInt]
  unfold Listing.pushConstant
  rw [← same]
  split
  · exact ⟨m, Alike.refl m, rfl⟩
  · exact ⟨m.set .rax (.ofInt 64 value.toInt), ⟨rfl, rfl, rfl, rfl, rfl⟩, rfl⟩

theorem run_load (exposed : Word → Bool) (m : Machine)
    : ∃ m', Alike m.drop m'
        ∧ m.run exposed Listing.load = some (m'.push (m.memory.readWord m.top)) := by
  refine ⟨_, ?_, rfl⟩
  exact ⟨rfl, rfl, rfl, rfl, rfl⟩

theorem run_store (exposed : Word → Bool) (m : Machine)
    : ∃ m', Alike { m.drop.drop with memory := m.memory.writeWord m.drop.top m.top } m'
        ∧ m.run exposed Listing.store = some (m'.push m.top) := by
  refine ⟨_, ?_, rfl⟩
  exact ⟨rfl, rfl, rfl, rfl, rfl⟩

-----------------------------------------------------------------------------------------
-- Operators
-----------------------------------------------------------------------------------------

/-- The right operand as the machine scales it. -/
def scaled (value : Word) : Option Nat → Word
  | some step => value * .ofInt 64 step
  | none => value

theorem holds_equal (left right : Word)
    : Condition.holds (.ofSub left right) .e = (left == right) := by
  simp only [Condition.holds, Flags.ofSub]
  rw [Bool.eq_iff_iff]
  simp only [beq_iff_eq]
  bv_omega

theorem holds_less (left right : Word)
    : Condition.holds (.ofSub left right) .l = left.slt right := by
  simp only [Condition.holds, Flags.ofSub]
  rw [Bool.eq_iff_iff, BitVec.slt_iff_toInt_lt]
  simp only [bne_iff_ne, ne_eq, BitVec.msb_eq_toInt, BitVec.ssubOverflow, BitVec.toInt_sub]
  have := left.toInt_lt
  have := left.le_toInt
  have := right.toInt_lt
  have := right.le_toInt
  generalize left.toInt = x at *
  generalize right.toInt = y at *
  simp only [Int.bmod]
  grind

theorem holds_lessEqual (left right : Word)
    : Condition.holds (.ofSub left right) .le = left.sle right := by
  have split : Condition.holds (.ofSub left right) .le
      = (Condition.holds (.ofSub left right) .e || Condition.holds (.ofSub left right) .l) :=
    rfl
  rw [split, holds_equal, holds_less, Bool.eq_iff_iff]
  simp only [Bool.or_eq_true, beq_iff_eq, BitVec.slt_iff_toInt_lt, BitVec.sle_iff_toInt_le]
  rw [← BitVec.toInt_inj]
  omega

/-- The relation that an operator tests holds just when its result is one. -/
theorem result?_of_condition? {op : BinaryOp} {condition : Condition} (left right : Word)
    (tests : op.condition? = some condition)
    : op.result? left right = some (.ofBool (condition.holds (.ofSub left right))) := by
  cases op <;> cases tests
  · rw [holds_equal]
    rfl
  · show _ = some (Word.ofBool !(Condition.holds (.ofSub left right) .e))
    rw [holds_equal]
    rfl
  · rw [holds_less]
    rfl
  · rw [holds_lessEqual]
    rfl

/-- The lowest byte of a word that ends in a truth value is the number of the value. -/
theorem lowByte_ofBool (high : BitVec 56) (b : Bool)
    : ((high ++ (BitVec.ofBool b).setWidth 8 : Word).setWidth 8).setWidth 64
      = Word.ofBool b := by
  rw [BitVec.setWidth_append]
  cases b <;> rfl

/-- A word and the copies of its sign before it are the same number. -/
theorem toInt_signExtended (word : Word)
    : ((if word.msb then (-1 : Word) else 0) ++ word).toInt = word.toInt := by
  have whole : ((if word.msb then (-1 : Word) else 0) ++ word) = word.signExtend 128 := by
    rw [BitVec.signExtend_eq_append_of_le (by decide : 64 ≤ 128)]
    cases word.msb <;> rfl
  rw [whole, BitVec.toInt_signExtend_of_le (by decide)]

/-- Dividing a sign-extended `rax` by `rdi` gives their signed quotient. -/
theorem divide?_signExtended (m : Machine) (nonzero : m.registers .rdi ≠ 0)
    (fits : m.registers .rax = .intMin 64 → m.registers .rdi ≠ -1)
    : ∃ m', Alike m m' ∧ m'.registers .rax = (m.registers .rax).sdiv (m.registers .rdi)
        ∧ (m.set .rdx (if (m.registers .rax).msb then -1 else 0)).divide? (m.registers .rdi)
          = some m' := by
  have quotient : ((m.registers .rax).sdiv (m.registers .rdi)).toInt
      = (m.registers .rax).toInt.tdiv (m.registers .rdi).toInt := by
    apply BitVec.toInt_sdiv_of_ne_or_ne
    by_cases least : m.registers .rax = .intMin 64
    · exact Or.inr (fits least)
    · exact Or.inl least
  have low := BitVec.le_toInt ((m.registers .rax).sdiv (m.registers .rdi))
  have high := BitVec.toInt_lt (x := (m.registers .rax).sdiv (m.registers .rdi))
  simp only [divide?, registers_set, if_true, reduceCtorEq, if_false, toInt_signExtended,
    ← quotient, BitVec.ofInt_toInt]
  refine ⟨_, ?_, ?_, if_neg ?_⟩
  · exact ⟨rfl, rfl, rfl, rfl, rfl⟩
  · rfl
  · rintro (zero | under | above)
    · exact nonzero zero
    · omega
    · omega

/-- The instructions of an operator put its result into `rax`. -/
theorem run_instrs (exposed : Word → Bool) (m : Machine) {op : BinaryOp} {value : Word}
    (defined : op.result? (m.registers .rax) (m.registers .rdi) = some value)
    : ∃ m', Alike m m' ∧ m'.registers .rax = value
        ∧ m.run exposed (op.instrs.map .instr) = some m' := by
  cases op with
  | add | subtract | multiply =>
      cases defined
      refine ⟨_, ?_, ?_, rfl⟩
      · exact ⟨rfl, rfl, rfl, rfl, rfl⟩
      · rfl
  | divide =>
      simp only [BinaryOp.result?, Option.ite_none_left_eq_some, not_or, not_and,
        Option.some.injEq] at defined
      obtain ⟨⟨nonzero, fits⟩, rfl⟩ := defined
      obtain ⟨m', alike, result, divided⟩ := divide?_signExtended m nonzero fits
      refine ⟨m', alike, result, ?_⟩
      show (divide? _ (m.registers .rdi)).bind some = _
      rw [divided]
      rfl
  | equal | notEqual | less | lessEqual =>
      rw [result?_of_condition? _ _ rfl, Option.some.injEq] at defined
      subst defined
      refine ⟨_, ?_, ?_, rfl⟩
      · exact ⟨rfl, rfl, rfl, rfl, rfl⟩
      · exact lowByte_ofBool _ _

theorem run_operate (exposed : Word → Bool) (m : Machine) {op : BinaryOp}
    {step : Option Nat} {value : Word}
    (defined : op.result? m.drop.top (scaled m.top step) = some value)
    : ∃ m', Alike m.drop.drop m'
        ∧ m.run exposed (Listing.operate op step) = some (m'.push value) := by
  obtain ⟨m₁, alike, rax, rdi, first⟩
      : ∃ m₁, Alike m.drop.drop m₁ ∧ m₁.registers .rax = m.drop.top
          ∧ m₁.registers .rdi = scaled m.top step
          ∧ m.run exposed ([.instr (.pop .rdi), .instr (.pop .rax)] ++ Listing.scale step)
            = some m₁ := by
    cases step with
    | none =>
        refine ⟨_, ?_, ?_, ?_, rfl⟩
        · exact ⟨rfl, rfl, rfl, rfl, rfl⟩
        · rfl
        · rfl
    | some step =>
        refine ⟨_, ?_, ?_, ?_, rfl⟩
        · exact ⟨rfl, rfl, rfl, rfl, rfl⟩
        · rfl
        · rfl
  rw [← rax, ← rdi] at defined
  obtain ⟨m₂, alike', result, second⟩ := run_instrs exposed m₁ defined
  subst result
  refine ⟨m₂, ?_, ?_⟩
  · exact ⟨alike'.rsp.trans alike.rsp, alike'.rbp.trans alike.rbp,
      alike'.memory.trans alike.memory, alike'.answers.trans alike.answers,
      alike'.calls.trans alike.calls⟩
  · exact run_append_of_run (run_append_of_run first second) rfl

-----------------------------------------------------------------------------------------
-- Calls
-----------------------------------------------------------------------------------------

/-- The words from an address on, upwards. -/
def Stacked (memory : Memory) (place : Word) : List Word → Prop
  | [] => True
  | word :: words => memory.readWord place = word ∧ Stacked memory (place + 8) words

theorem stacked_append {memory : Memory} {place : Word} {first second : List Word}
    : Stacked memory place (first ++ second)
      ↔ Stacked memory place first
        ∧ Stacked memory (place + .ofNat 64 (8 * first.length)) second := by
  induction first generalizing place with
  | nil => simp [Stacked]
  | cons word first ih =>
      have above : place + 8 + .ofNat 64 (8 * first.length)
          = place + .ofNat 64 (8 * (word :: first).length) := by
        rw [BitVec.add_assoc, List.length_cons, Nat.mul_succ, Nat.add_comm (8 * _),
          BitVec.ofNat_add]
        rfl
      simp only [List.cons_append, Stacked, ih, above, and_assoc]

/-- Words on the stack are the same in memories that agree where they stand. -/
theorem stacked_congr {first second : Memory} {place : Word} {words : List Word}
    (fits : place.toNat + 8 * words.length ≤ 2 ^ 64)
    (same : ∀ x : Word, place ≤ x → x.toNat < place.toNat + 8 * words.length
      → first x = second x)
    (stacked : Stacked first place words)
    : Stacked second place words := by
  induction words generalizing place with
  | nil => trivial
  | cons word words ih =>
      simp only [List.length_cons] at fits same
      refine ⟨?_, ?_⟩
      · rw [← stacked.1]
        apply Memory.readWord_congr
        intro i below
        exact (same _ (by bv_omega) (by bv_omega)).symm
      · cases words with
        | nil => trivial
        | cons next words =>
            simp only [List.length_cons] at fits same ih
            have up : (place + 8).toNat = place.toNat + 8 := by bv_omega
            apply ih
            · omega
            · intro x low high
              exact same x (by bv_omega) (by omega)
            · exact stacked.2

/-- Popping into distinct registers takes the words from the top of the stack in order. -/
theorem run_popAll (exposed : Word → Bool) (m : Machine) (registers : List Register)
    (words : List Word) (plain : ∀ r ∈ registers, r ≠ .al ∧ r ≠ .rsp ∧ r ≠ .rbp)
    (distinct : registers.Nodup)
    (length : registers.length = words.length)
    (stacked : Stacked m.memory (m.registers .rsp) words)
    : ∃ m', m.run exposed (Listing.popAll registers) = some m'
        ∧ registers.map m'.registers = words
        ∧ (∀ r ∉ registers, r ≠ .rsp → m'.registers r = m.registers r)
        ∧ m'.registers .rsp = m.registers .rsp + .ofNat 64 (8 * registers.length)
        ∧ m'.memory = m.memory ∧ m'.answers = m.answers ∧ m'.calls = m.calls := by
  induction registers generalizing m words with
  | nil =>
      obtain rfl : words = [] := List.length_eq_zero_iff.mp length.symm
      exact ⟨m, rfl, rfl, fun _ _ _ => rfl, by simp, rfl, rfl, rfl⟩
  | cons r registers ih =>
      cases words with
      | nil => simp at length
      | cons word words =>
          obtain ⟨notAl, notRsp, notRbp⟩ := plain r (by simp)
          obtain ⟨fresh, distinct⟩ := List.nodup_cons.mp distinct
          have popped : m.perform exposed (.pop r) = some (m.pop r) := by
            cases r <;> first | rfl | exact absurd rfl notAl
          have rsp : (m.pop r).registers .rsp = m.registers .rsp + 8 := by
            simp [pop, Ne.symm notRsp]
          obtain ⟨m', run, taken, others, height, memory, answers, calls⟩ := ih (m.pop r) words
            (fun r' member => plain r' (List.mem_cons_of_mem r member)) distinct
            (by simpa using length) (by rw [rsp]; exact stacked.2)
          refine ⟨m', ?_, ?_, ?_, ?_, memory, answers, calls⟩
          · simp only [Listing.popAll, List.map_cons, Machine.run, popped]
            exact run
          · rw [List.map_cons, taken, others r fresh notRsp]
            congr 1
            simp only [pop, registers_set, if_true]
            exact stacked.1
          · intro r' absent notRsp'
            rw [List.mem_cons, not_or] at absent
            rw [others r' absent.2 notRsp']
            simp [pop, absent.1, notRsp']
          · rw [height, rsp, BitVec.add_assoc, List.length_cons, Nat.mul_succ,
              Nat.add_comm (8 * _), BitVec.ofNat_add]
            rfl

/-- The state of the caller before and after a call that was given the answer. -/
structure Returns (exposed : Word → Bool) (name : String) (answer : Answer)
    (answers : List Answer) (m m' : Machine)
    : Prop where
  rax : m'.registers .rax = answer.value
  rsp : m'.registers .rsp = m.registers .rsp
  rbp : m'.registers .rbp = m.registers .rbp
  shared : ∀ place, exposed place → m'.memory place = answer.memory place
  kept : ∀ place, m.registers .rsp ≤ place → ¬ exposed place
    → m'.memory place = m.memory place
  answers : m'.answers = answers
  calls : m'.calls = m.calls ++ [⟨name, Register.forArguments.map m.registers⟩]

/-- A call with an answer returns. -/
theorem run_call (exposed : Word → Bool) (m : Machine) (name : String) {answer : Answer}
    {answers : List Answer}
    (given : m.answers = answer :: answers)
    : ∃ m', m.run exposed [.instr (.mov (.reg .rax) (.imm 0)), .instr (.call name)] = some m'
        ∧ Returns exposed name answer answers m m' := by
  have called : (m.set .rax 0).perform exposed (.call name)
      = some ((m.set .rax 0).answered exposed name answer answers) := by
    simp only [perform, set, given]
  refine ⟨(m.set .rax 0).answered exposed name answer answers, ?_, ?_⟩
  · show ((m.set .rax 0).perform exposed (.call name)).bind some = _
    rw [called]
    rfl
  · refine ⟨rfl, rfl, rfl, ?_, ?_, rfl, rfl⟩
    · intro place shared
      simp [answered, shared]
    · intro place above hidden
      have notBelow : ¬ place < m.registers .rsp := by simpa using above
      simp [answered, hidden, notBelow]

/-- A call returns whether or not the stack is moved around it, if there is room to move it.
-/
theorem run_alignedCall (exposed : Word → Bool) (m : Machine) (depth : Int) (name : String)
    {answer : Answer} {answers : List Answer} (given : m.answers = answer :: answers)
    (room : 8 ≤ (m.registers .rsp).toNat)
    : ∃ m', m.run exposed (Listing.alignedCall depth name) = some m'
        ∧ Returns exposed name answer answers m m' := by
  unfold Listing.alignedCall
  split
  · exact run_call exposed m name given
  · obtain ⟨flags, moved⟩
        : ∃ flags, m.run exposed [.instr (.arith .sub (.reg .rsp) (.imm slotSize))]
            = some ({ m with flags := flags }.set .rsp (m.registers .rsp - 8)) :=
      ⟨_, rfl⟩
    obtain ⟨m₂, run, returned⟩ := run_call exposed
      ({ m with flags := flags }.set .rsp (m.registers .rsp - 8)) name given
    obtain ⟨flags', back⟩
        : ∃ flags, m₂.run exposed [.instr (.arith .add (.reg .rsp) (.imm slotSize))]
            = some ({ m₂ with flags := flags }.set .rsp (m₂.registers .rsp + 8)) :=
      ⟨_, rfl⟩
    refine ⟨_, run_append_of_run moved (run_append_of_run run back), ?_⟩
    refine ⟨returned.rax, ?_, ?_, returned.shared, ?_, returned.answers, returned.calls⟩
    · simp only [registers_set, if_true, returned.rsp]
      bv_omega
    · simp only [registers_set, reduceCtorEq, if_false, returned.rbp]
    · intro place above hidden
      apply returned.kept place _ hidden
      simp only [registers_set, if_true]
      bv_omega

end Machine

end SlotC
