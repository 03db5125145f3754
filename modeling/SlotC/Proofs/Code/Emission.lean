import Mathlib.Logic.Basic
import SlotC.Code.Function

/-! What a successful emission appended and which state it left. Each step of code
generation has one equivalence here, and later proofs take emissions apart with these only.
-/

namespace SlotC

/-- From state `g` the emission succeeds with answer `a`, appends `ls` and leaves `g'`. -/
def Emit.Emits {α : Type} (x : Emit α) (g : GenState) (ls : Listing) (g' : GenState) (a : α)
    : Prop :=
  x g = ⟨ls, g', .ok a⟩

namespace Emit

/-- An emission that ends well emits its own lines and its own state. -/
theorem emits_of_outcome {α : Type} {x : Emit α} {g : GenState} {a : α}
    (ok : (x g).outcome = .ok a)
    : x.Emits g (x g).lines (x g).state a := by
  unfold Emits
  rw [← ok]

/-- What an emission emits is determined by its start. -/
theorem Emits.outcome {α : Type} {x : Emit α} {g g' : GenState} {ls : Listing} {a : α}
    (h : x.Emits g ls g' a)
    : (x g).outcome = .ok a ∧ (x g).lines = ls ∧ (x g).state = g' := by
  unfold Emits at h
  rw [h]
  exact ⟨rfl, rfl, rfl⟩

/-- An emission with a known course emits just that. -/
theorem Emits.iff_of_eq {x : Emit Unit} {g g' g₁ : GenState} {ls l : Listing}
    (h : x.Emits g l g₁ ())
    : x.Emits g ls g' () ↔ ls = l ∧ g' = g₁ := by
  unfold Emits at h ⊢
  rw [h]
  simp [eq_comm]

-----------------------------------------------------------------------------------------
-- Composition
-----------------------------------------------------------------------------------------

section

variable {α β : Type} {x : Emit α} {k : α → Emit β} {g g₁ : GenState} {out out' : Listing}

/-- After a step that succeeds, the next one takes its state and writes behind its lines. -/
theorem run_bind_ok {a : α} (first : x.run g out = ⟨out', g₁, .ok a⟩)
    : (x >>= k).run g out = (k a).run g₁ out' := by
  show (Emit.bind x k).run g out = _
  simp only [Emit.bind, first]

/-- After an error nothing more is written. -/
theorem run_bind_error {error : CodeError} (first : x.run g out = ⟨out', g₁, .error error⟩)
    : (x >>= k).run g out = ⟨out', g₁, .error error⟩ := by
  show (Emit.bind x k).run g out = _
  simp only [Emit.bind, first]

theorem bind_ok {a : α} (first : x g = ⟨out, g₁, .ok a⟩)
    : (x >>= k) g = (k a g₁).behind out :=
  (run_bind_ok first).trans ((k a).appends g₁ out)

theorem bind_error {error : CodeError} (first : x g = ⟨out, g₁, .error error⟩)
    : (x >>= k) g = ⟨out, g₁, .error error⟩ :=
  run_bind_error first

end

@[simp] theorem emits_pure {α : Type} {a b : α} {g g' : GenState} {ls : Listing}
    : (pure a : Emit α).Emits g ls g' b ↔ ls = [] ∧ g' = g ∧ b = a := by
  show (⟨[], g, .ok a⟩ : Emission α) = ⟨ls, g', .ok b⟩ ↔ _
  simp only [Emission.mk.injEq, Except.ok.injEq]
  exact ⟨fun ⟨h, h', h''⟩ => ⟨h.symm, h'.symm, h''.symm⟩,
    fun ⟨h, h', h''⟩ => ⟨h.symm, h'.symm, h''.symm⟩⟩

/-- Two steps in sequence succeed just when both do, and append their lines in order. -/
theorem emits_bind {α β : Type} {x : Emit α} {k : α → Emit β} {g g' : GenState}
    {ls : Listing} {b : β}
    : (x >>= k).Emits g ls g' b
      ↔ ∃ a l₁ g₁ l₂, x.Emits g l₁ g₁ a ∧ (k a).Emits g₁ l₂ g' b ∧ ls = l₁ ++ l₂ := by
  unfold Emits
  constructor
  · intro h
    rcases first : x g with ⟨l₁, g₁, error | a⟩
    · rw [bind_error first] at h
      cases h
    · rw [bind_ok first] at h
      obtain ⟨lines, state, outcome⟩ := Emission.mk.inj h
      refine ⟨a, l₁, g₁, (k a g₁).lines, rfl, ?_, lines.symm⟩
      rw [← state, ← outcome]
  · rintro ⟨a, l₁, g₁, l₂, first, second, rfl⟩
    rw [bind_ok first, second]
    rfl

/-- The same for a first step without an answer. -/
@[simp] theorem emits_bind_unit {β : Type} {x : Emit Unit} {k : Unit → Emit β}
    {g g' : GenState} {ls : Listing} {b : β}
    : (x >>= k).Emits g ls g' b
      ↔ ∃ l₁ g₁ l₂, x.Emits g l₁ g₁ () ∧ (k ()).Emits g₁ l₂ g' b ∧ ls = l₁ ++ l₂ := by
  rw [emits_bind]
  exact ⟨fun ⟨(), h⟩ => h, fun h => ⟨(), h⟩⟩

/-- After a first step with a known course only the second one is open. -/
theorem emits_bind_of_emits {α β : Type} {x : Emit α} {k : α → Emit β} {g g₁ g' : GenState}
    {l ls : Listing} {a : α} {b : β} (first : x.Emits g l g₁ a)
    : (x >>= k).Emits g ls g' b ↔ ∃ l₂, (k a).Emits g₁ l₂ g' b ∧ ls = l ++ l₂ := by
  rw [emits_bind]
  constructor
  · rintro ⟨_, _, _, l₂, first', second, rfl⟩
    cases first.symm.trans first'
    exact ⟨l₂, second, rfl⟩
  · rintro ⟨l₂, second, rfl⟩
    exact ⟨a, l, g₁, l₂, first, second, rfl⟩

@[simp] theorem not_emits_fail {α : Type} {error : CodeError} {g g' : GenState}
    {ls : Listing} {a : α}
    : ¬ (fail error : Emit α).Emits g ls g' a := by
  intro emitted
  cases emitted

instance : LawfulMonad Emit :=
  LawfulMonad.mk' Emit
    (fun x => by
      refine Emit.ext (funext₂ fun g out => ?_)
      rcases first : x.run g out with ⟨l, g₁, error | a⟩
      · exact run_bind_error first
      · exact run_bind_ok first)
    (fun a k => rfl)
    (fun x k k' => by
      refine Emit.ext (funext₂ fun g out => ?_)
      rcases first : x.run g out with ⟨l, g₁, error | a⟩
      · rw [run_bind_error (run_bind_error first), run_bind_error first]
      · rw [run_bind_ok first]
        rcases second : (k a).run g₁ l with ⟨l', g₂, error | b⟩
        · have both : (x >>= k).run g out = ⟨l', g₂, .error error⟩ :=
            (run_bind_ok first).trans second
          rw [run_bind_error both, run_bind_error second]
        · have both : (x >>= k).run g out = ⟨l', g₂, .ok b⟩ := (run_bind_ok first).trans second
          rw [run_bind_ok both, run_bind_ok second])

-----------------------------------------------------------------------------------------
-- Single steps
-----------------------------------------------------------------------------------------

@[simp] theorem emits_lines {listing ls : Listing} {g g' : GenState}
    : (lines listing).Emits g ls g' () ↔ ls = listing ∧ g' = g :=
  Emits.iff_of_eq rfl

@[simp] theorem emits_instr {i : Instr} {ls : Listing} {g g' : GenState}
    : (instr i).Emits g ls g' () ↔ ls = [.instr i] ∧ g' = g :=
  emits_lines

@[simp] theorem emits_label {l : Label} {ls : Listing} {g g' : GenState}
    : (label l).Emits g ls g' () ↔ ls = [.label l] ∧ g' = g :=
  emits_lines

@[simp] theorem emits_shiftDepth {change : Int} {ls : Listing} {g g' : GenState}
    : (shiftDepth change).Emits g ls g' ()
      ↔ ls = [] ∧ g' = ⟨g.nextLabel, g.depth + change⟩ :=
  Emits.iff_of_eq rfl

@[simp] theorem emits_setDepth {d : Int} {ls : Listing} {g g' : GenState}
    : (setDepth d).Emits g ls g' () ↔ ls = [] ∧ g' = ⟨g.nextLabel, d⟩ :=
  Emits.iff_of_eq rfl

@[simp] theorem emits_depth_bind {β : Type} {k : Int → Emit β} {ls : Listing}
    {g g' : GenState} {b : β}
    : (depth >>= k).Emits g ls g' b ↔ (k g.depth).Emits g ls g' b := by
  have course : depth.Emits g [] g g.depth := rfl
  simp [emits_bind_of_emits course]

@[simp] theorem emits_freshLabel_bind {β : Type} {k : Nat → Emit β} {ls : Listing}
    {g g' : GenState} {b : β}
    : (freshLabel >>= k).Emits g ls g' b
      ↔ (k g.nextLabel).Emits ⟨g.nextLabel + 1, g.depth⟩ ls g' b := by
  have course : freshLabel.Emits g [] ⟨g.nextLabel + 1, g.depth⟩ g.nextLabel := rfl
  simp [emits_bind_of_emits course]

@[simp] theorem emits_push {operand : Operand} {ls : Listing} {g g' : GenState}
    : (push operand).Emits g ls g' ()
      ↔ ls = [.instr (.push operand)] ∧ g' = ⟨g.nextLabel, g.depth + 1⟩ :=
  Emits.iff_of_eq rfl

@[simp] theorem emits_pop {register : Register} {ls : Listing} {g g' : GenState}
    : (pop register).Emits g ls g' ()
      ↔ ls = [.instr (.pop register)] ∧ g' = ⟨g.nextLabel, g.depth - 1⟩ :=
  Emits.iff_of_eq rfl

end Emit

end SlotC
