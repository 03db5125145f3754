import Mathlib.Data.List.Forall2
import SlotC.Code.Function
import SlotC.Proofs.Code.Labels

/-! The lines of functions: the head that makes room for the variables and stores the
parameters, the code of the body, and the end.
-/

namespace SlotC

/-- The register that a parameter comes in. -/
def Variable.register? (v : Variable) : Option Register :=
  v.argIndex.bind fun index => Register.forArguments[index]?

/-- Bytes that the head of a function takes from the stack for its variables. -/
def Function.frame (f : Function) : Int :=
  roundUp16 f.frameSize

/-- Frames are multiples of sixteen. -/
theorem Function.frame_mod (f : Function) : f.frame % 16 = 0 := by
  simp [Function.frame, roundUp16]

/-- A frame that is not negative takes in the variables. -/
theorem roundUp16_bounds {size : Int} (positive : 0 ≤ size)
    : size ≤ roundUp16 size ∧ roundUp16 size < size + 16 := by
  rw [roundUp16, Int.tdiv_eq_ediv_of_nonneg (by omega)]
  omega

namespace Listing

/-- Makes room for the variables. -/
def setUp (frame : Int) : Listing :=
  [.instr (.push (.reg .rbp)), .instr (.mov (.reg .rbp) (.reg .rsp))]
  ++ if 0 < frame then [.instr (.arith .sub (.reg .rsp) (.imm frame))] else []

/-- Names the function and makes room for its variables. -/
def prologue (name : String) (frame : Int) : Listing :=
  .directive (.globl name) :: .label (.symbol name) :: setUp frame

/-- The head of a function defines the name of the function. -/
theorem labels_prologue (name : String) (frame : Int)
    : (prologue name frame).labels = [.symbol name] := by
  unfold prologue setUp
  split
  · rfl
  · rfl

/-- The lines store the parameters. -/
def Spills : List Variable → Listing → Prop :=
  List.Forall₂ fun v line =>
    ∃ r, v.register? = some r ∧ line = .instr (.mov (.stack v.offset) (.reg r))

/-- Parameters are stored by moves. -/
theorem Spills.eq_mov {vs : List Variable} {ls : Listing} {line : Line} (h : Spills vs ls)
    (member : line ∈ ls)
    : ∃ (v : Variable) (r : Register), line = .instr (.mov (.stack v.offset) (.reg r)) := by
  induction h with
  | nil => cases member
  | @cons v _ _ _ head _ ih =>
      rcases List.mem_cons.mp member with rfl | later
      · obtain ⟨r, -, same⟩ := head
        exact ⟨v, r, same⟩
      · exact ih later

/-- Storing parameters defines no label. -/
theorem Spills.labels_eq_nil {vs : List Variable} {ls : Listing} (h : Spills vs ls)
    : ls.labels = [] := by
  refine List.filterMap_eq_nil_iff.mpr ?_
  intro line member
  obtain ⟨v, r, rfl⟩ := h.eq_mov member
  rfl

end Listing

namespace Emit

variable {f : Function} {g g' : GenState} {ls : Listing}

theorem emits_prologue {name : String} {frame : Int}
    : (prologue name frame).Emits g ls g' ()
      ↔ ls = Listing.prologue name frame ∧ g' = g := by
  unfold prologue Listing.prologue Listing.setUp
  split
  · exact Emits.iff_of_eq rfl
  · exact Emits.iff_of_eq rfl

theorem emits_spill {vs : List Variable}
    : (spill vs).Emits g ls g' () ↔ Listing.Spills vs ls ∧ g' = g := by
  induction vs generalizing g ls with
  | nil =>
      rw [spill, emits_pure, Listing.Spills, List.forall₂_nil_left_iff]
      simp
  | cons v vs ih =>
      have register : v.argIndex.bind (fun index => Register.forArguments[index]?) = v.register? :=
        rfl
      rw [spill, register, Listing.Spills, List.forall₂_cons_left_iff]
      cases found : v.register? with
      | none => simp
      | some r =>
          simp only [emits_bind_unit, emits_instr, ih]
          constructor
          · rintro ⟨_, _, l₂, ⟨rfl, rfl⟩, ⟨rest, rfl⟩, rfl⟩
            exact ⟨⟨_, l₂, ⟨r, rfl, rfl⟩, rest, rfl⟩, rfl⟩
          · rintro ⟨⟨_, l₂, ⟨_, same, rfl⟩, rest, rfl⟩, rfl⟩
            cases same
            exact ⟨_, _, l₂, ⟨rfl, rfl⟩, ⟨rest, rfl⟩, rfl⟩

/-- Code of the body of a function and of its end. The body has to leave the stack as it was. -/
def body (f : Function) : Emit Unit := do
  stmts f f.body
  epilogue
  let depth ← depth
  if depth = 0 then pure () else fail (.unbalanced depth f.name)

/-- A function is its head, and its body from an empty stack on. -/
theorem function_eq (f : Function)
    : function f
      = if fitsInt32 f.frame then do
          prologue f.name f.frame
          spill f.params
          setDepth 0
          body f
        else fail (.frameTooLarge f.name) :=
  rfl

/-- The body of a function has to leave the stack as it was. -/
theorem emits_balanced {depth : Int}
    : (if depth = 0 then pure () else fail (.unbalanced depth f.name) : Emit Unit).Emits g ls g' ()
      ↔ depth = 0 ∧ ls = [] ∧ g' = g := by
  split
  · next zero => simp [zero]
  · next other => simp [other]

/-- A function whose code is complete is its head, its body and its end. -/
theorem function_emits (h : (function f).Emits g ls g' ())
    : ∃ l₁ l₂, Listing.Spills f.params l₁
        ∧ (stmts f f.body).Emits ⟨g.nextLabel, 0⟩ l₂ g' ()
        ∧ ls = Listing.prologue f.name f.frame ++ (l₁ ++ (l₂ ++ Listing.epilogue)) := by
  simp only [function] at h
  split at h
  · simp only [emits_bind_unit, emits_prologue, emits_spill, emits_setDepth, emits_epilogue,
      emits_depth_bind, emits_balanced] at h
    obtain ⟨_, _, _, ⟨rfl, rfl⟩, ⟨l₁, _, _, ⟨stored, rfl⟩, ⟨_, _, _, ⟨rfl, rfl⟩, ⟨l₂, g₂, _, body,
      ⟨_, _, _, ⟨rfl, rfl⟩, ⟨-, rfl, rfl⟩, rfl⟩, rfl⟩, rfl⟩, rfl⟩, rfl⟩ := h
    exact ⟨l₁, l₂, stored, body, rfl⟩
  · simp at h

/-- All labels of the code of a function are different. -/
theorem function_labels_nodup (h : (function f).Emits g ls g' ()) : ls.labels.Nodup := by
  obtain ⟨l₁, l₂, stored, body, rfl⟩ := function_emits h
  have numbered := stmts_numbered f.body body
  have all : (Listing.prologue f.name f.frame ++ (l₁ ++ (l₂ ++ Listing.epilogue))).labels
      = .symbol f.name :: l₂.labels := by
    simp only [Listing.labels_append, Listing.labels_prologue, stored.labels_eq_nil]
    exact congrArg _ (List.append_nil l₂.labels)
  rw [all]
  refine List.nodup_cons.mpr ⟨?_, numbered.distinct⟩
  intro member
  cases numbered.isNumbered member

/-- The code of a function is entered at its second line, which has its name. -/
theorem function_at (h : (function f).Emits g ls g' ())
    : ∃ l₁ l₂, Listing.Spills f.params l₁ ∧ (stmts f f.body).Emits ⟨g.nextLabel, 0⟩ l₂ g' ()
        ∧ ls.At 1 (.label (.symbol f.name)
            :: (Listing.setUp f.frame ++ l₁ ++ (l₂ ++ Listing.epilogue))) := by
  obtain ⟨l₁, l₂, stored, body, rfl⟩ := function_emits h
  refine ⟨l₁, l₂, stored, body, ?_⟩
  rw [Listing.At, Listing.prologue]
  simp

theorem emits_functions_nil : (functions []).Emits g ls g' () ↔ ls = [] ∧ g' = g := by
  rw [functions]
  exact Emits.iff_of_eq rfl

theorem emits_functions_cons {fs : List Function}
    : (functions (f :: fs)).Emits g ls g' ()
      ↔ ∃ l₁ g₁ l₂, (function f).Emits g l₁ g₁ () ∧ (functions fs).Emits g₁ l₂ g' ()
          ∧ ls = l₁ ++ l₂ := by
  rw [functions, emits_bind_unit]

end Emit

section

variable {program : Program} {listing : Listing} {error : CodeError}

/-- The code of a program is what its functions emit. -/
theorem Program.listing_eq_ok
    : program.listing = .ok listing
      ↔ ∃ g, (Emit.functions program.functions).Emits .initial listing g () := by
  constructor
  · intro generated
    cases ended : (Emit.functions program.functions .initial).outcome with
    | error error => simp [Program.listing, ended, Except.map] at generated
    | ok a =>
        have lines : (Emit.functions program.functions .initial).lines = listing := by
          simpa [Program.listing, ended, Except.map] using generated
        exact ⟨_, lines ▸ Emit.emits_of_outcome ended⟩
  · rintro ⟨g, emitted⟩
    obtain ⟨ended, lines, -⟩ := emitted.outcome
    simp [Program.listing, ended, lines, Except.map]

theorem Program.listing_eq_error
    : program.listing = .error error
      ↔ (Emit.functions program.functions .initial).outcome = .error error := by
  cases ended : (Emit.functions program.functions .initial).outcome with
  | error error' => simp [Program.listing, ended, Except.map]
  | ok a => simp [Program.listing, ended, Except.map]

end

end SlotC
