import Mathlib.Logic.Relation
import SlotC.Proofs.Code.Labels
import SlotC.Proofs.Machine.Pieces

/-! Runs of code with jumps. A run is at a line of the code until it returns. Lines that do
not move control run as they do alone, wherever they stand in the code.
-/

namespace SlotC

/-- Where a run is: at a line, or back at an address outside the code. -/
inductive Control where
  | line (n : Nat)
  | returned (address : Word)
deriving DecidableEq, Repr

/-- A moment of a run. -/
structure Config where
  control : Control
  machine : Machine

namespace Config

/-- One step of a run. A conditional jump needs flags that are defined. -/
def step? (exposed : Word → Bool) (code : Listing) : Config → Option Config
  | ⟨.returned _, _⟩ => none
  | ⟨.line n, m⟩ =>
    match code[n]? with
    | none => none
    | some (.directive _) | some (.label _) => some ⟨.line (n + 1), m⟩
    | some (.instr (.jmp target)) => (code.line? target).map fun k => ⟨.line k, m⟩
    | some (.instr (.jmpIf condition target)) => do
      let flags ← m.flags
      if condition.holds flags then (code.line? target).map fun k => ⟨.line k, m⟩
      else some ⟨.line (n + 1), m⟩
    | some (.instr .ret) => some ⟨.returned m.top, m.drop⟩
    | some (.instr i) => (m.perform exposed i).map fun m => ⟨.line (n + 1), m⟩

/-- Some number of steps leads from one moment to the other. -/
def Reaches (exposed : Word → Bool) (code : Listing) : Config → Config → Prop :=
  Relation.ReflTransGen fun c c' => c.step? exposed code = some c'

section

variable {exposed : Word → Bool} {code ls : Listing} {m m' : Machine} {n : Nat}

/-- The first of lines without jumps is one step. -/
theorem step?_of_run {line : Line} (here : code[n]? = some line)
    (run : m.run exposed (line :: ls) = some m')
    : ∃ m₁, step? exposed code ⟨.line n, m⟩ = some ⟨.line (n + 1), m₁⟩
        ∧ m₁.run exposed ls = some m' := by
  cases line with
  | directive | label => exact ⟨m, by simp [step?, here], run⟩
  | instr i =>
      obtain ⟨m₁, performed, rest⟩ := Option.bind_eq_some_iff.mp run
      refine ⟨m₁, ?_, rest⟩
      cases i with
      | jmp | jmpIf | ret => simp [Machine.perform] at performed
      | push | pop | mov | movzb | arith | cqo | idiv | cmp | set | call =>
          simp [step?, here, performed]

/-- Lines without jumps run in the code as they do alone. -/
theorem reaches_of_run (standing : code.At n ls) (run : m.run exposed ls = some m')
    : Reaches exposed code ⟨.line n, m⟩ ⟨.line (n + ls.length), m'⟩ := by
  induction ls generalizing n m with
  | nil =>
      cases run
      exact .refl
  | cons line ls ih =>
      obtain ⟨here, after⟩ := Listing.at_cons.mp standing
      obtain ⟨m₁, step, rest⟩ := step?_of_run here run
      rw [List.length_cons, Nat.add_comm ls.length, ← Nat.add_assoc]
      exact .head step (ih after rest)

/-- What is reached from lines without jumps is at one of them or is reached after them. -/
theorem reaches_of_reaches_run {c : Config} (standing : code.At n ls)
    (run : m.run exposed ls = some m') (reaches : Reaches exposed code ⟨.line n, m⟩ c)
    : (∃ k < ls.length, c.control = .line (n + k))
      ∨ Reaches exposed code ⟨.line (n + ls.length), m'⟩ c := by
  induction ls generalizing n m with
  | nil =>
      cases run
      exact .inr reaches
  | cons line ls ih =>
      obtain ⟨here, after⟩ := Listing.at_cons.mp standing
      obtain ⟨m₁, step, rest⟩ := step?_of_run here run
      rw [List.length_cons, Nat.add_comm ls.length, ← Nat.add_assoc]
      rcases Relation.ReflTransGen.cases_head reaches with rfl | ⟨next, step', reaches⟩
      · exact .inl ⟨0, by omega, rfl⟩
      · obtain rfl := Option.some.inj (step.symm.trans step')
        rcases ih after rest reaches with ⟨k, below, at'⟩ | later
        · refine .inl ⟨1 + k, by omega, ?_⟩
          rw [at', Nat.add_assoc]
        · exact .inr later

/-- Where a step from a line may lead. -/
inductive Moves (exposed : Word → Bool) (code : Listing) (n : Nat) (m : Machine)
    : Line → Config → Prop where
  | directive (d : Directive) : Moves exposed code n m (.directive d) ⟨.line (n + 1), m⟩
  | label (l : Label) : Moves exposed code n m (.label l) ⟨.line (n + 1), m⟩
  | jmp {l : Label} {k : Nat} (target : code[k]? = some (.label l))
      : Moves exposed code n m (.instr (.jmp l)) ⟨.line k, m⟩
  | jumps {condition : Condition} {l : Label} {k : Nat} (target : code[k]? = some (.label l))
      : Moves exposed code n m (.instr (.jmpIf condition l)) ⟨.line k, m⟩
  | passes (condition : Condition) (l : Label)
      : Moves exposed code n m (.instr (.jmpIf condition l)) ⟨.line (n + 1), m⟩
  | ret (address : Word) (m' : Machine)
      : Moves exposed code n m (.instr .ret) ⟨.returned address, m'⟩
  | perform {i : Instr} {m' : Machine} (performed : m.perform exposed i = some m')
      : Moves exposed code n m (.instr i) ⟨.line (n + 1), m'⟩

/-- Every step is one of these. -/
theorem moves_of_step? {c : Config} (step : step? exposed code ⟨.line n, m⟩ = some c)
    : ∃ line, code[n]? = some line ∧ Moves exposed code n m line c := by
  cases here : code[n]? with
  | none => simp [step?, here] at step
  | some line =>
      refine ⟨line, rfl, ?_⟩
      cases line with
      | directive d =>
          simp only [step?, here, Option.some.injEq] at step
          exact step ▸ .directive d
      | label l =>
          simp only [step?, here, Option.some.injEq] at step
          exact step ▸ .label l
      | instr i =>
          cases i with
          | jmp l =>
              simp only [step?, here, Option.map_eq_some_iff] at step
              obtain ⟨k, found, rfl⟩ := step
              exact .jmp (Listing.getElem?_of_line? found)
          | jmpIf condition l =>
              simp only [step?, here, Option.bind_eq_bind, Option.bind_eq_some_iff] at step
              obtain ⟨flags, -, step⟩ := step
              split at step
              · obtain ⟨k, found, rfl⟩ := Option.map_eq_some_iff.mp step
                exact .jumps (Listing.getElem?_of_line? found)
              · cases step
                exact .passes condition l
          | ret =>
              simp only [step?, here, Option.some.injEq] at step
              exact step ▸ .ret _ _
          | push | pop | mov | movzb | arith | cqo | idiv | cmp | set | call =>
              simp only [step?, here, Option.map_eq_some_iff] at step
              obtain ⟨m', performed, rfl⟩ := step
              exact .perform performed

/-- A jump leads to the line of its label. -/
theorem reaches_jmp {l : Label} {k : Nat} (standing : code.At n [.instr (.jmp l)])
    (target : code.line? l = some k)
    : Reaches exposed code ⟨.line n, m⟩ ⟨.line k, m⟩ := by
  obtain ⟨here, -⟩ := Listing.at_cons.mp standing
  exact .single (by simp [step?, here, target])

/-- A conditional jump leads to the line of its label or on to the next. -/
theorem step?_jmpIf {condition : Condition} {l : Label} {k : Nat} {flags : Flags}
    (here : code[n]? = some (.instr (.jmpIf condition l))) (defined : m.flags = some flags)
    (target : code.line? l = some k)
    : step? exposed code ⟨.line n, m⟩
      = some ⟨.line (if condition.holds flags then k else n + 1), m⟩ := by
  simp only [step?, here, defined, target, Option.bind_eq_bind, Option.bind_some,
    Option.map_some]
  split
  · rfl
  · rfl

/-- The value on top of the stack decides whether the run goes to the label. -/
theorem reaches_jumpIfZero {l : Label} {k : Nat} (m : Machine)
    (standing : code.At n (Listing.jumpIfZero l)) (target : code.line? l = some k)
    : ∃ m', m.drop.Alike m' ∧ m'.registers .rax = m.top
        ∧ Reaches exposed code ⟨.line n, m⟩
            ⟨.line (if m.top = 0 then k else n + (Listing.jumpIfZero l).length), m'⟩ := by
  have split : Listing.jumpIfZero l
      = [.instr (.pop .rax), .instr (.cmp (.reg .rax) (.imm 0))] ++ [.instr (.jmpIf .e l)] :=
    rfl
  rw [split] at standing
  obtain ⟨before, jump⟩ := Listing.at_append.mp standing
  obtain ⟨here, -⟩ := Listing.at_cons.mp jump
  have run : m.run exposed [.instr (.pop .rax), .instr (.cmp (.reg .rax) (.imm 0))]
      = some { m.pop .rax with flags := some (.ofSub m.top 0) } := rfl
  have jumps : (if Condition.e.holds (.ofSub m.top 0) then k else n + 2 + 1)
      = if m.top = 0 then k else n + (Listing.jumpIfZero l).length := by
    simp [Condition.holds, Flags.ofSub, Listing.jumpIfZero]
  refine ⟨{ m.pop .rax with flags := some (.ofSub m.top 0) }, ⟨rfl, rfl, rfl, rfl, rfl⟩, rfl,
    (reaches_of_run before run).trans (.single ?_)⟩
  rw [← jumps]
  exact step?_jmpIf here rfl target

end

end Config

end SlotC
