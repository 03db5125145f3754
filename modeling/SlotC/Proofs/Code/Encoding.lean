import SlotC.Proofs.Code.Frame

/-! Code that the machine has an encoding for. Numbers, offsets and the size of the frame fit
the fields of the instructions that they stand in, however large the frame is.
-/

namespace SlotC

/-- Whether the operand lies in memory. -/
def Operand.isMemory : Operand → Bool
  | .mem _ | .stack _ => true
  | .imm _ | .reg _ => false

/-- What the instruction works on, the operand that is written first. -/
def Instr.operands : Instr → List Operand
  | .push operand | .idiv operand => [operand]
  | .mov target source | .arith _ target source => [target, source]
  | .cmp left right => [left, right]
  | .pop register | .set _ register => [.reg register]
  | .movzb target source => [.reg target, .reg source]
  | .cqo | .jmp _ | .jmpIf _ _ | .call _ | .ret => []

/-- The machine has the instruction: its numbers are signed 32-bit numbers, unless it moves one
to `rax`, the places that it names in the frame are inside the largest one, at most one operand
lies in memory, and a number comes first only where it is pushed.
-/
@[mk_iff]
structure Instr.Encodable (i : Instr) : Prop where
  numbers : ∀ value, Operand.imm value ∈ i.operands →
    i = .mov (.reg .rax) (.imm value) ∨ (-2 ^ 31 ≤ value ∧ value < 2 ^ 31)
  slots : ∀ offset, Operand.stack offset ∈ i.operands → 0 < offset ∧ offset ≤ Frame.maxSize
  memory : i.operands.countP Operand.isMemory ≤ 1
  first : ∀ value, i.operands.head? = some (.imm value) → i = .push (.imm value)

/-- The machine has all instructions of the lines. -/
def Listing.Encodable (ls : Listing) : Prop :=
  ∀ i, Line.instr i ∈ ls → i.Encodable

/-- The variables of the function have places inside the largest frame. -/
def Function.Bounded (f : Function) : Prop :=
  ∀ v ∈ f.locals, 0 < v.offset ∧ v.offset ≤ Frame.maxSize

theorem Function.LaidOut.bounded {f : Function} (laid : f.LaidOut) : f.Bounded := by
  intro v declared
  obtain ⟨low, high⟩ := laid.locals v declared
  have slots : 0 < v.slots := by
    unfold Variable.slots
    omega
  unfold slotSize at low
  omega

namespace Listing.Encodable

-----------------------------------------------------------------------------------------
-- Pieces
-----------------------------------------------------------------------------------------

theorem append {first second : Listing} (left : first.Encodable) (right : second.Encodable)
    : Encodable (first ++ second) := by
  intro i member
  rcases List.mem_append.mp member with inside | inside
  · exact left i inside
  · exact right i inside

theorem nil : Encodable [] :=
  fun _ member => nomatch member

theorem cons_iff {line : Line} {ls : Listing}
    : Encodable (line :: ls) ↔ (∀ i, line = .instr i → i.Encodable) ∧ ls.Encodable := by
  simp only [Encodable, List.mem_cons, or_imp, forall_and, eq_comm]

attribute [local simp] nil cons_iff Instr.encodable_iff Instr.operands Operand.isMemory
  List.countP_cons

theorem push (register : Register) : Encodable [.instr (.push (.reg register))] := by
  simp

theorem pushZero : Encodable [.instr (.push (.imm 0))] := by
  simp

theorem pop (register : Register) : Encodable [.instr (.pop register)] := by
  simp

theorem label (l : Label) : Encodable [.label l] := by
  simp

theorem jmp (l : Label) : Encodable [.instr (.jmp l)] := by
  simp

theorem pushAddress {v : Variable} (bounds : 0 < v.offset ∧ v.offset ≤ Frame.maxSize)
    : Encodable (Listing.pushAddress v) := by
  have fits : -2147483648 ≤ v.offset ∧ v.offset < 2147483648 := by
    unfold Frame.maxSize at bounds
    omega
  simp [Listing.pushAddress, fits]

/-- A number is pushed as it is only if it is a signed 32-bit number. -/
theorem pushConstant (value : Int64) : Encodable (Listing.pushConstant value) := by
  unfold Listing.pushConstant
  split
  · next pushed =>
      have fits : -2147483648 ≤ value.toInt ∧ value.toInt < 2147483648 := by
        simp only [fitsInt32, Bool.and_eq_true, decide_eq_true_eq] at pushed
        omega
      simp [fits]
  · simp

theorem load : Encodable Listing.load := by
  simp [Listing.load]

theorem store : Encodable Listing.store := by
  simp [Listing.store]

/-- Every variable that holds an address steps over one slot. -/
theorem scale {f : Function} {op : BinaryOp} {left : Expr}
    : Encodable (Listing.scale (pointerStep? f op left)) := by
  cases found : pointerStep? f op left with
  | none => simp [Listing.scale]
  | some step =>
      have slot : step = slotSize := by
        cases left with
        | var id =>
            simp only [pointerStep?] at found
            split at found
            · obtain ⟨v, -, rfl⟩ := Option.map_eq_some_iff.mp found
              unfold Variable.pointeeSize
              split
              · rfl
              · cases v.scalar
                rfl
            · cases found
        | constant | binary | assign | addressOf | deref | call => cases found
      simp [Listing.scale, slot, slotSize]

theorem operate {f : Function} {op : BinaryOp} {left : Expr}
    : Encodable (Listing.operate op (pointerStep? f op left)) := by
  have applied : Encodable (op.instrs.map .instr) := by
    cases op <;> simp [BinaryOp.instrs, BinaryOp.arith?, BinaryOp.condition?]
  have popped : Encodable [.instr (.pop .rdi), .instr (.pop .rax)] := (pop .rdi).append (pop .rax)
  exact ((popped.append scale).append applied).append (push .rax)

theorem popAll (registers : List Register) : Encodable (Listing.popAll registers) := by
  intro i member
  obtain ⟨register, -, same⟩ := List.mem_map.mp member
  cases same
  exact pop register _ List.mem_cons_self

theorem alignedCall (depth : Int) (name : String)
    : Encodable (Listing.alignedCall depth name) := by
  unfold Listing.alignedCall
  split
  · simp
  · simp [slotSize]

theorem jumpIfZero (l : Label) : Encodable (Listing.jumpIfZero l) := by
  simp [Listing.jumpIfZero]

theorem epilogue : Encodable Listing.epilogue := by
  simp [Listing.epilogue]

theorem branch {id : Nat} {test yes no : Listing} (first : test.Encodable) (second : yes.Encodable)
    (third : no.Encodable)
    : Encodable (Listing.branch id test yes no) :=
  first.append ((jumpIfZero _).append (second.append
    (((jmp _).append (label _)).append (third.append (label _)))))

theorem repetition {id : Nat} {test body step : Listing} (first : test.Encodable)
    (second : body.Encodable) (third : step.Encodable)
    : Encodable (Listing.repetition id test body step) :=
  (label _).append (first.append (second.append ((pop _).append
    (third.append ((jmp _).append (label _))))))

/-- The frame is taken from the stack by one instruction. -/
theorem prologue {name : String} {frame : Int} (fits : fitsInt32 frame)
    : Encodable (Listing.prologue name frame) := by
  have range : -2147483648 ≤ frame ∧ frame < 2147483648 := by
    simp only [fitsInt32, Bool.and_eq_true, decide_eq_true_eq] at fits
    omega
  unfold Listing.prologue Listing.setUp
  split
  · simp [range]
  · simp

theorem spills {vs : List Variable} {ls : Listing} (stored : Listing.Spills vs ls)
    (bounds : ∀ v ∈ vs, 0 < v.offset ∧ v.offset ≤ Frame.maxSize)
    : ls.Encodable := by
  induction stored with
  | nil => exact nil
  | @cons v line vs ls head _ ih =>
      obtain ⟨own, others⟩ := List.forall_mem_cons.mp bounds
      obtain ⟨register, -, rfl⟩ := head
      have first : Encodable [.instr (.mov (.stack v.offset) (.reg register))] := by
        simp [own]
      exact first.append (ih others)

end Listing.Encodable

namespace Emit

variable {f : Function}

-----------------------------------------------------------------------------------------
-- Expressions
-----------------------------------------------------------------------------------------

theorem pushAddress_encodable (bounded : f.Bounded) {id : Nat} {v : Variable}
    (found : f.get? id = some v)
    : (Listing.pushAddress v).Encodable :=
  .pushAddress (bounded v (List.mem_of_getElem? found))

mutual

/-- The code of an expression has instructions of the machine only. -/
theorem value_encodable (bounded : f.Bounded) (e : Expr) {g g' : GenState} {ls : Listing}
    (h : (value f e).Emits g ls g' ())
    : ls.Encodable := by
  cases e with
  | constant number =>
      obtain ⟨rfl, -⟩ := emits_value_constant.mp h
      exact .pushConstant number
  | var id =>
      obtain ⟨v, found, rfl, -⟩ := emits_value_var.mp h
      refine (pushAddress_encodable bounded found).append ?_
      cases v.isArray with
      | true => exact .nil
      | false => exact .load
  | binary op left right =>
      obtain ⟨_, _, _, _, first, second, rfl, -⟩ := emits_value_binary.mp h
      have deeper := value_encodable bounded right second
      exact (value_encodable bounded left first).append (deeper.append .operate)
  | assign target source =>
      obtain ⟨-, _, _, _, _, first, second, rfl, -⟩ := emits_value_assign.mp h
      have deeper := value_encodable bounded source second
      exact (place_encodable bounded target first).append (deeper.append .store)
  | addressOf operand => exact place_encodable bounded operand (emits_value_addressOf.mp h)
  | deref operand =>
      obtain ⟨_, first, rfl⟩ := emits_value_deref.mp h
      exact (value_encodable bounded operand first).append .load
  | call name arguments =>
      obtain ⟨-, _, _, first, rfl, -⟩ := emits_value_call.mp h
      exact (values_encodable bounded arguments first).append
        (((Listing.Encodable.popAll _).append (.alignedCall _ name)).append (.push .rax))

/-- So has the code of a place. -/
theorem place_encodable (bounded : f.Bounded) (e : Expr) {g g' : GenState} {ls : Listing}
    (h : (place f e).Emits g ls g' ())
    : ls.Encodable := by
  cases e with
  | var id =>
      obtain ⟨v, found, rfl, -⟩ := emits_place_var.mp h
      exact pushAddress_encodable bounded found
  | deref operand => exact value_encodable bounded operand (emits_place_deref.mp h)
  | constant | binary | assign | addressOf | call => simp [place] at h

/-- So has the code of several expressions. -/
theorem values_encodable (bounded : f.Bounded) (es : List Expr) {g g' : GenState} {ls : Listing}
    (h : (values f es).Emits g ls g' ())
    : ls.Encodable := by
  cases es with
  | nil =>
      obtain ⟨rfl, -⟩ := emits_values_nil.mp h
      exact .nil
  | cons e es =>
      obtain ⟨_, _, _, first, others, rfl⟩ := emits_values_cons.mp h
      exact (value_encodable bounded e first).append (values_encodable bounded es others)

end

-----------------------------------------------------------------------------------------
-- Statements
-----------------------------------------------------------------------------------------

theorem effect_encodable (bounded : f.Bounded) {e : Option Expr} {g g' : GenState} {ls : Listing}
    (h : (effect f e).Emits g ls g' ())
    : ls.Encodable := by
  cases e with
  | none =>
      obtain ⟨rfl, -⟩ := emits_effect_none.mp h
      exact .nil
  | some e =>
      obtain ⟨_, first, rfl, -⟩ := emits_effect_some.mp h
      exact (value_encodable bounded e first).append (.pop .rax)

theorem leaveUnless_encodable (bounded : f.Bounded) {l : Label} {e : Option Expr}
    {g g' : GenState} {ls : Listing} (h : (leaveUnless f l e).Emits g ls g' ())
    : ls.Encodable := by
  cases e with
  | none =>
      obtain ⟨rfl, -⟩ := emits_leaveUnless_none.mp h
      exact .nil
  | some e =>
      obtain ⟨_, first, rfl, -⟩ := emits_leaveUnless_some.mp h
      exact (value_encodable bounded e first).append (.jumpIfZero l)

theorem forLoop_encodable (bounded : f.Bounded) {start condition step : Option Expr} {body : Stmt}
    {g g' : GenState} {ls : Listing}
    (h : (stmt f (.forLoop start condition step body)).Emits g ls g' ())
    (inner : ∀ {g₁ g₂ l₂}, (stmt f body).Emits g₁ l₂ g₂ () → l₂.Encodable)
    : ls.Encodable := by
  obtain ⟨_, _, _, zeroth, repeated, rfl, -⟩ := emits_stmt_forLoop.mp h
  obtain ⟨_, _, _, _, first, second, third, rfl, -⟩ := emits_repetition.mp repeated
  refine (effect_encodable bounded zeroth).append (.append ?_ .pushZero)
  exact .repetition (leaveUnless_encodable bounded first) (inner second)
    (effect_encodable bounded third)

mutual

/-- The code of a statement has instructions of the machine only. -/
theorem stmt_encodable (bounded : f.Bounded) (s : Stmt) {g g' : GenState} {ls : Listing}
    (h : (stmt f s).Emits g ls g' ())
    : ls.Encodable := by
  cases s with
  | expr e => exact value_encodable bounded e (emits_stmt_expr.mp h)
  | block body =>
      obtain ⟨_, _, first, rfl, -⟩ := emits_stmt_block.mp h
      exact (stmts_encodable bounded body first).append (.push .rax)
  | branch condition whenTrue whenFalse =>
      obtain ⟨_, _, _, _, first, second, third, rfl⟩ := emits_stmt_branch.mp h
      refine .branch (value_encodable bounded condition first)
        (stmt_encodable bounded whenTrue second) ?_
      cases whenFalse with
      | none =>
          obtain ⟨rfl, -⟩ := emits_push.mp third
          exact .pushZero
      | some s => exact stmt_encodable bounded s third
  | whileLoop condition body =>
      rw [stmt_whileLoop_eq] at h
      exact forLoop_encodable bounded h (stmt_encodable bounded body)
  | forLoop start condition step body =>
      exact forLoop_encodable bounded h (stmt_encodable bounded body)
  | ret e =>
      obtain ⟨_, first, rfl, -⟩ := emits_stmt_ret.mp h
      exact (value_encodable bounded e first).append
        ((Listing.Encodable.pop .rax).append .epilogue)
  | declare id =>
      obtain ⟨rfl, -⟩ := emits_stmt_declare.mp h
      exact .pushZero

/-- So has the code of statements. -/
theorem stmts_encodable (bounded : f.Bounded) (ss : List Stmt) {g g' : GenState} {ls : Listing}
    (h : (stmts f ss).Emits g ls g' ())
    : ls.Encodable := by
  cases ss with
  | nil =>
      obtain ⟨rfl, -⟩ := emits_stmts_nil.mp h
      exact .nil
  | cons s ss =>
      obtain ⟨_, _, _, first, second, rfl⟩ := emits_stmts_cons.mp h
      exact (stmt_encodable bounded s first).append
        ((Listing.Encodable.pop .rax).append (stmts_encodable bounded ss second))

end

-----------------------------------------------------------------------------------------
-- Functions
-----------------------------------------------------------------------------------------

/-- The code of a function with its variables in place has instructions of the machine only. -/
theorem function_encodable (laid : f.LaidOut) {g g' : GenState} {ls : Listing}
    (h : (function f).Emits g ls g' ())
    : ls.Encodable := by
  obtain ⟨_, _, stored, body, rfl⟩ := function_emits h
  have spilled := Listing.Encodable.spills stored fun v given =>
    laid.bounded v (laid.params.subset given)
  exact (Listing.Encodable.prologue laid.fitsInt32_frame).append
    (spilled.append ((stmts_encodable laid.bounded f.body body).append .epilogue))

theorem functions_encodable {fs : List Function} (laid : ∀ f ∈ fs, f.LaidOut) {g g' : GenState}
    {ls : Listing} (h : (functions fs).Emits g ls g' ())
    : ls.Encodable := by
  induction fs generalizing g ls with
  | nil =>
      obtain ⟨rfl, -⟩ := emits_functions_nil.mp h
      exact .nil
  | cons f fs ih =>
      obtain ⟨own, laid⟩ := List.forall_mem_cons.mp laid
      obtain ⟨_, _, _, first, others, rfl⟩ := emits_functions_cons.mp h
      exact (function_encodable own first).append (ih laid others)

end Emit

/-- The machine has every instruction of the code of a program that was read. -/
theorem listing_encodable (ts : List Token) (program : Program) (listing : Listing)
    (read : Program.ofTokens ts = .ok program) (generated : program.listing = .ok listing)
    : ∀ i ∈ listing.instrs, i.Encodable := by
  obtain ⟨g, emitted⟩ := Program.listing_eq_ok.mp generated
  have encodable := Emit.functions_encodable (Program.laidOut_of_ofTokens read) emitted
  intro i member
  obtain ⟨line, inside, same⟩ := List.mem_filterMap.mp member
  cases line with
  | instr =>
      cases same
      exact encodable i inside
  | directive | label => cases same

namespace Brim

/-- A function whose frame is as large as it can be: a parameter, and an array that leaves no
room for more. It stores a number that is too large to be pushed.
-/
def tokens : List Token :=
  [⟨.type .int, "int", 0, 0⟩, ⟨.identifier, "f", 0, 4⟩, ⟨.openParen, "(", 0, 5⟩,
    ⟨.type .int, "int", 0, 6⟩, ⟨.identifier, "p", 0, 10⟩, ⟨.closeParen, ")", 0, 11⟩,
    ⟨.openBrace, "\x7b", 0, 13⟩, ⟨.type .int, "int", 0, 15⟩, ⟨.identifier, "a", 0, 19⟩,
    ⟨.openBracket, "[", 0, 20⟩, ⟨.constant, "268435453", 268435453, 21⟩,
    ⟨.closeBracket, "]", 0, 30⟩, ⟨.semicolon, ";", 0, 31⟩, ⟨.star, "*", 0, 33⟩,
    ⟨.identifier, "a", 0, 34⟩, ⟨.assign, "=", 0, 36⟩, ⟨.constant, "2147483648", 2147483648, 38⟩,
    ⟨.semicolon, ";", 0, 48⟩, ⟨.closeBrace, "\x7d", 0, 50⟩]

/-- The function that the tokens spell. -/
def function : Function :=
  ⟨"f", 1, [⟨"p", .int, 8, 0, 0, some 0⟩, ⟨"a", .int, 0x7ffffff0, 1, 268435453, none⟩],
    [.declare 1, .expr (.assign (.deref (.var 1)) (.constant 2147483648))]⟩

/-- The code of the function. -/
def code : Listing :=
  [.directive (.globl "f"), .label (.symbol "f"), .instr (.push (.reg .rbp)),
    .instr (.mov (.reg .rbp) (.reg .rsp)),
    .instr (.arith .sub (.reg .rsp) (.imm 0x7ffffff0)),
    .instr (.mov (.stack 8) (.reg .rdi)), .instr (.push (.imm 0)), .instr (.pop .rax),
    .instr (.mov (.reg .rax) (.reg .rbp)),
    .instr (.arith .sub (.reg .rax) (.imm 0x7ffffff0)), .instr (.push (.reg .rax)),
    .instr (.mov (.reg .rax) (.imm 2147483648)), .instr (.push (.reg .rax)),
    .instr (.pop .rdi), .instr (.pop .rax), .instr (.mov (.mem .rax) (.reg .rdi)),
    .instr (.push (.reg .rdi)), .instr (.pop .rax), .instr (.mov (.reg .rsp) (.reg .rbp)),
    .instr (.pop .rbp), .instr .ret]

end Brim

/-- The instructions for the largest frame are still those of the machine. -/
theorem listing_encodable_brim
    : Program.ofTokens Brim.tokens = .ok ⟨[Brim.function]⟩
      ∧ Program.listing ⟨[Brim.function]⟩ = .ok Brim.code
      ∧ ∀ i ∈ Listing.instrs Brim.code, i.Encodable := by
  have read : Program.ofTokens Brim.tokens = .ok ⟨[Brim.function]⟩ := by with_unfolding_all rfl
  have generated : Program.listing ⟨[Brim.function]⟩ = .ok Brim.code := by with_unfolding_all rfl
  exact ⟨read, generated, listing_encodable Brim.tokens _ _ read generated⟩

end SlotC
