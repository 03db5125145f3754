import SlotC.Proofs.Code.Shape

/-! How far code moves the stack. The code of an expression never takes the stack below
where it starts, leaves it one word higher, and makes every call at an even height.
-/

namespace SlotC

/-- Whether the register tells where the stack or the frame is. -/
def Register.isFrame : Register → Bool
  | .rsp | .rbp => true
  | _ => false

namespace Instr

/-- The words by which the instruction raises the stack. -/
def rise : Instr → Int
  | .push _ => 1
  | .pop _ => -1
  | .arith .sub (.reg .rsp) (.imm n) => if n = slotSize then 1 else 0
  | .arith .add (.reg .rsp) (.imm n) => if n = slotSize then -1 else 0
  | _ => 0

/-- Whether the instruction keeps control and the base of the frame, and moves the stack
only as far as it raises it.
-/
def isPlain : Instr → Bool
  | .jmp _ | .jmpIf _ _ | .ret => false
  | .arith .imul (.reg .rsp) _ => false
  | .arith _ (.reg .rsp) (.imm n) => n = slotSize
  | .pop r | .mov (.reg r) _ | .movzb r _ | .arith _ (.reg r) _ | .set _ r => !r.isFrame
  | _ => true

/-- Whether the instruction is a call. -/
def isCall : Instr → Bool
  | .call _ => true
  | _ => false

end Instr

/-- From one height to another the lines are plain instructions that stay at the floor or
above it, with every call at an even height.
-/
def Straight (floor : Int) : Int → Listing → Int → Prop
  | low, [], high => low = high
  | low, .instr i :: ls, high =>
    i.isPlain ∧ (i.isCall → low % 2 = 0) ∧ floor ≤ low + i.rise
      ∧ Straight floor (low + i.rise) ls high
  | _, _, _ => False

namespace Straight

variable {floor low middle high : Int} {first second ls : Listing}

/-- Lines that start where others end follow them. -/
theorem append (left : Straight floor low first middle)
    (right : Straight floor middle second high)
    : Straight floor low (first ++ second) high := by
  induction first generalizing low with
  | nil =>
      cases left
      exact right
  | cons line first ih =>
      cases line with
      | instr i =>
          obtain ⟨plain, even, above, rest⟩ := left
          exact ⟨plain, even, above, ih rest⟩
      | directive | label => exact left.elim

/-- Such lines define no labels. -/
theorem labels_eq_nil (h : Straight floor low ls high) : ls.labels = [] := by
  induction ls generalizing low with
  | nil => rfl
  | cons line ls ih =>
      cases line with
      | instr i => exact ih h.2.2.2
      | directive | label => exact h.elim

-----------------------------------------------------------------------------------------
-- Pieces
-----------------------------------------------------------------------------------------

attribute [local simp] Straight Instr.isPlain Instr.isCall Instr.rise

theorem pushAddress (v : Variable) (above : floor ≤ low)
    : Straight floor low (Listing.pushAddress v) (low + 1) := by
  simp [Listing.pushAddress, Register.isFrame]
  omega

theorem pushConstant (value : Int64) (above : floor ≤ low)
    : Straight floor low (Listing.pushConstant value) (low + 1) := by
  unfold Listing.pushConstant
  split <;> simp [Register.isFrame] <;> omega

theorem load (above : floor ≤ low) : Straight floor (low + 1) Listing.load (low + 1) := by
  simp [Listing.load, Register.isFrame]
  omega

theorem store (above : floor ≤ low) : Straight floor (low + 1 + 1) Listing.store (low + 1) := by
  simp [Listing.store, Register.isFrame]
  omega

theorem operate (op : BinaryOp) (step : Option Nat) (above : floor ≤ low)
    : Straight floor (low + 1 + 1) (Listing.operate op step) (low + 1) := by
  cases op <;> cases step <;> simp [Listing.operate, Listing.scale, BinaryOp.instrs,
    BinaryOp.arith?, BinaryOp.condition?, Register.isFrame] <;> omega

theorem popAll (registers : List Register) (plain : ∀ r ∈ registers, r.isFrame = false)
    (above : floor ≤ low)
    : Straight floor (low + registers.length) (Listing.popAll registers) low := by
  induction registers with
  | nil => simp [Listing.popAll]
  | cons register registers ih =>
      have rest := ih (fun r member => plain r (List.mem_cons_of_mem _ member))
      have down : low + (register :: registers).length + Instr.rise (.pop register)
          = low + registers.length := by
        simp only [List.length_cons, Instr.rise]
        omega
      refine ⟨?_, by simp, ?_, ?_⟩
      · simp [plain register]
      · omega
      · rw [down]
        exact rest

/-- A call is made at an even height, whatever the height around it. -/
theorem alignedCall (name : String) (above : floor ≤ low)
    : Straight floor low (Listing.alignedCall low name) low := by
  unfold Listing.alignedCall
  split
  · next even =>
      simp [Register.isFrame, even, above]
  · next odd =>
      simp [Register.isFrame]
      omega

end Straight

namespace Emit

variable {f : Function}

mutual

/-- The code of an expression raises the stack by one word. -/
theorem value_straight (e : Expr) {g g' : GenState} {ls : Listing} {floor : Int}
    (h : (value f e).Emits g ls g' ()) (above : floor ≤ g.depth)
    : Straight floor g.depth ls (g.depth + 1) := by
  have higher : floor ≤ g.depth + 1 := by omega
  cases e with
  | constant number =>
      obtain ⟨rfl, -⟩ := emits_value_constant.mp h
      exact .pushConstant number above
  | var id =>
      obtain ⟨v, -, rfl, -⟩ := emits_value_var.mp h
      refine (Straight.pushAddress v above).append ?_
      cases v.isArray with
      | true => rfl
      | false => exact .load above
  | binary op left right =>
      obtain ⟨l₁, g₁, l₂, g₂, first, second, rfl, -⟩ := emits_value_binary.mp h
      obtain rfl := value_state left first
      have deeper := value_straight right second higher
      exact (value_straight left first above).append (deeper.append (.operate op _ above))
  | assign target source =>
      obtain ⟨-, l₁, g₁, l₂, g₂, first, second, rfl, -⟩ := emits_value_assign.mp h
      obtain rfl := place_state target first
      have deeper := value_straight source second higher
      exact (place_straight target first above).append (deeper.append (.store above))
  | addressOf operand => exact place_straight operand (emits_value_addressOf.mp h) above
  | deref operand =>
      obtain ⟨l₁, first, rfl⟩ := emits_value_deref.mp h
      exact (value_straight operand first above).append (.load above)
  | call name arguments =>
      obtain ⟨few, l₁, g₁, first, rfl, -⟩ := emits_value_call.mp h
      obtain rfl := values_state arguments first
      have plain : ∀ r ∈ Register.forArguments, r.isFrame = false := by decide
      have popped := Straight.popAll (Register.forArguments.take arguments.length).reverse
        (fun r member => plain r (List.mem_of_mem_take (List.mem_reverse.mp member))) above
      rw [List.length_reverse, List.length_take_of_le few] at popped
      have back : (g.deeper arguments.length).depth - arguments.length = g.depth := by
        rw [GenState.deeper_depth, Int.add_sub_cancel]
      have pushed : Straight floor g.depth [.instr (.push (.reg .rax))] (g.depth + 1) :=
        ⟨rfl, by simp [Instr.isCall], higher, rfl⟩
      rw [back]
      exact (values_straight arguments first above).append
        ((popped.append (.alignedCall name above)).append pushed)

/-- So does the code of a place. -/
theorem place_straight (e : Expr) {g g' : GenState} {ls : Listing} {floor : Int}
    (h : (place f e).Emits g ls g' ()) (above : floor ≤ g.depth)
    : Straight floor g.depth ls (g.depth + 1) := by
  cases e with
  | var id =>
      obtain ⟨v, -, rfl, -⟩ := emits_place_var.mp h
      exact .pushAddress v above
  | deref operand => exact value_straight operand (emits_place_deref.mp h) above
  | constant | binary | assign | addressOf | call => simp [place] at h

/-- The code of several expressions raises the stack by one word for each. -/
theorem values_straight (es : List Expr) {g g' : GenState} {ls : Listing} {floor : Int}
    (h : (values f es).Emits g ls g' ()) (above : floor ≤ g.depth)
    : Straight floor g.depth ls (g.depth + es.length) := by
  cases es with
  | nil =>
      obtain ⟨rfl, -⟩ := emits_values_nil.mp h
      simp [Straight]
  | cons e es =>
      obtain ⟨l₁, g₁, l₂, first, second, rfl⟩ := emits_values_cons.mp h
      obtain rfl := value_state e first
      have higher : floor ≤ (g.deeper 1).depth :=
        Int.le_trans above (Int.le_add_one (Int.le_refl _))
      have rest := values_straight es second higher
      have total : (g.deeper 1).depth + es.length = g.depth + (e :: es).length := by
        simp only [GenState.deeper_depth, List.length_cons]
        omega
      rw [total] at rest
      exact (value_straight e first above).append rest

end

end Emit

end SlotC
