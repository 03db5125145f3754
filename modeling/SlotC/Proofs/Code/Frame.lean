import Mathlib.Data.List.Forall2
import SlotC.Proofs.Code.Function
import SlotC.Proofs.Grammar.Function

/-! Frames of functions with their variables in place: they hold the variables, they are small
enough for an instruction, and every parameter comes in a register.
-/

namespace SlotC

variable {f : Function}

/-- No variable lies deeper than the bytes of the frame. -/
theorem Function.offset_le_frameSize {v : Variable} (declared : v ∈ f.locals)
    : v.offset ≤ f.frameSize := by
  have member : v.offset ∈ f.locals.map Variable.offset := List.mem_map_of_mem declared
  cases most : (f.locals.map Variable.offset).max? with
  | none =>
      rw [List.max?_eq_none_iff.mp most] at member
      cases member
  | some size =>
      rw [Function.frameSize, most]
      exact (List.max?_eq_some_iff.mp most).2 _ member

/-- The frame of a function with its variables in place holds them all and is not large. -/
theorem Function.LaidOut.frame_bounds (laid : f.LaidOut)
    : 0 ≤ f.frame ∧ f.frameSize ≤ f.frame ∧ f.frame < Frame.maxSize + 16 := by
  have size : 0 ≤ f.frameSize ∧ f.frameSize ≤ Frame.maxSize := by
    cases most : (f.locals.map Variable.offset).max? with
    | none =>
        rw [Function.frameSize, most]
        exact ⟨Int.le_refl _, by decide⟩
    | some size =>
        rw [Function.frameSize, most]
        obtain ⟨v, declared, rfl⟩ := List.mem_map.mp (List.max?_eq_some_iff.mp most).1
        obtain ⟨low, high⟩ := laid.locals v declared
        exact ⟨by simp only [Option.getD_some]; omega, high⟩
  obtain ⟨low, high⟩ := roundUp16_bounds size.1
  exact ⟨Int.le_trans size.1 low, low, by unfold Function.frame; omega⟩

/-- The largest frame is a multiple of sixteen, so rounding up does not make a frame larger
than that.
-/
theorem Function.LaidOut.fitsInt32_frame (laid : f.LaidOut) : fitsInt32 f.frame := by
  obtain ⟨positive, -, bound⟩ := laid.frame_bounds
  have whole := f.frame_mod
  simp only [Frame.maxSize] at bound
  simp only [fitsInt32, Bool.and_eq_true, decide_eq_true_eq]
  omega

/-- Every parameter comes in a register. -/
theorem Function.LaidOut.register?_isSome (laid : f.LaidOut) {v : Variable}
    (given : v ∈ f.params)
    : v.register?.isSome := by
  have index : v.argIndex ∈ (List.range f.paramCount).map some :=
    laid.indices ▸ List.mem_map_of_mem given
  obtain ⟨i, inside, same⟩ := List.mem_map.mp index
  have few : i < Register.forArguments.length :=
    Nat.lt_of_lt_of_le (List.mem_range.mp inside) laid.few
  rw [Variable.register?, ← same, Option.bind_some, List.getElem?_eq_getElem few]
  rfl

end SlotC
