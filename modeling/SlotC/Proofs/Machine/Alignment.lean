import SlotC.Proofs.Code.ControlFlow
import SlotC.Proofs.Machine.Run

/-! Alignment of the stack at calls. Along every run of a function the stack pointer is
where the height of the line says, so that calls find it at a multiple of sixteen.
-/

namespace SlotC

namespace Machine

variable {exposed : Word → Bool} {m m' : Machine}

/-- The machine has its stack and its base in the given places. -/
structure StackAt (m : Machine) (rsp rbp : Word) : Prop where
  rsp : m.registers .rsp = rsp
  rbp : m.registers .rbp = rbp

theorem stackAt_set {r : Register} {value : Word} (plain : r.isFrame = false)
    : (m.set r value).StackAt (m.registers .rsp) (m.registers .rbp) := by
  cases r with
  | rsp | rbp => cases plain
  | rax | rdi | rsi | rdx | rcx | r8 | r9 | al => exact ⟨rfl, rfl⟩

/-- Writing to anything but the registers of the frame leaves them. -/
theorem stackAt_write? {target : Operand} {value : Word}
    (plain : ∀ r, target = .reg r → r.isFrame = false) (written : m.write? value target = some m')
    : m'.StackAt (m.registers .rsp) (m.registers .rbp) := by
  cases target with
  | imm => cases written
  | stack =>
      cases written
      exact ⟨rfl, rfl⟩
  | mem r => cases r <;> cases written <;> exact ⟨rfl, rfl⟩
  | reg r =>
      have set : m' = m.set r value := by
        cases r <;> cases written <;> rfl
      rw [set]
      exact stackAt_set (plain r rfl)

/-- An instruction that does not raise the stack leaves it. -/
theorem StackAt.still {i : Instr} {rsp rbp : Word} (kept : m'.StackAt rsp rbp)
    (none : i.rise = 0)
    : m'.StackAt (rsp - .ofInt 64 (8 * i.rise)) rbp := by
  rw [none]
  exact ⟨by simp [kept.rsp], kept.rbp⟩

/-- A word less on the stack. -/
theorem add_eight (place : Word) : place + 8 = place - .ofInt 64 (8 * -1) := by
  have eight : BitVec.ofInt 64 (8 * -1) = -8 := by decide
  rw [eight]
  bv_omega

/-- An arithmetic instruction on the stack pointer moves it by one word. -/
theorem stackAt_arith {op : Arith} {target source : Operand}
    (plain : (Instr.arith op target source).isPlain)
    (performed : m.perform exposed (.arith op target source) = some m')
    : m'.StackAt (m.registers .rsp - .ofInt 64 (8 * (Instr.arith op target source).rise))
        (m.registers .rbp) := by
  obtain ⟨left, leftRead, performed⟩ := Option.bind_eq_some_iff.mp performed
  obtain ⟨right, rightRead, written⟩ := Option.bind_eq_some_iff.mp performed
  by_cases moves : target = .reg .rsp
  · subst moves
    cases leftRead
    cases written
    cases source with
    | imm n =>
        cases rightRead
        cases op with
        | imul => cases plain
        | add =>
            obtain rfl : n = slotSize := by simpa [Instr.isPlain] using plain
            exact ⟨add_eight _, rfl⟩
        | sub =>
            obtain rfl : n = slotSize := by simpa [Instr.isPlain] using plain
            exact ⟨rfl, rfl⟩
    | reg | mem | stack => cases op <;> cases plain
  · have others : ∀ r, target = .reg r → r.isFrame = false := by
      rintro r rfl
      cases r <;> simp_all [Instr.isPlain, Register.isFrame]
    refine (stackAt_write? others written).still ?_
    unfold Instr.rise
    split <;> simp_all

/-- A plain instruction moves the stack as far as it raises it and keeps the base. -/
theorem stackAt_perform {i : Instr} (plain : i.isPlain)
    (performed : m.perform exposed i = some m')
    : m'.StackAt (m.registers .rsp - .ofInt 64 (8 * i.rise)) (m.registers .rbp) := by
  cases i with
  | push operand =>
      obtain ⟨value, -, rfl⟩ := Option.map_eq_some_iff.mp performed
      exact ⟨rfl, rfl⟩
  | pop r =>
      cases r with
      | rsp | rbp => cases plain
      | al => cases performed
      | rax | rdi | rsi | rdx | rcx | r8 | r9 =>
          cases performed
          exact ⟨add_eight _, rfl⟩
  | mov target source =>
      obtain ⟨value, -, written⟩ := Option.bind_eq_some_iff.mp performed
      refine (stackAt_write? (fun r same => ?_) written).still rfl
      subst same
      simpa [Instr.isPlain] using plain
  | movzb target source =>
      cases source with
      | al =>
          refine (stackAt_write? (fun r same => ?_) performed).still rfl
          cases same
          simpa [Instr.isPlain] using plain
      | rax | rdi | rsi | rdx | rcx | r8 | r9 | rsp | rbp => cases performed
  | arith op target source => exact stackAt_arith plain performed
  | cqo =>
      cases performed
      exact (stackAt_set rfl).still rfl
  | idiv divisor =>
      obtain ⟨value, -, divided⟩ := Option.bind_eq_some_iff.mp performed
      simp only [divide?] at divided
      split at divided
      · cases divided
      · cases divided
        exact StackAt.still ⟨rfl, rfl⟩ rfl
  | cmp left right =>
      obtain ⟨a, -, performed⟩ := Option.bind_eq_some_iff.mp performed
      obtain ⟨b, -, performed⟩ := Option.bind_eq_some_iff.mp performed
      cases performed
      exact StackAt.still ⟨rfl, rfl⟩ rfl
  | set condition r =>
      cases r with
      | al =>
          obtain ⟨flags, -, performed⟩ := Option.bind_eq_some_iff.mp performed
          cases performed
          exact (stackAt_set rfl).still rfl
      | rax | rdi | rsi | rdx | rcx | r8 | r9 | rsp | rbp => cases performed
  | call name =>
      simp only [perform] at performed
      split at performed
      · cases performed
      · cases performed
        exact StackAt.still ⟨rfl, rfl⟩ rfl
  | jmp | jmpIf | ret => cases plain

-----------------------------------------------------------------------------------------
-- The head of a function
-----------------------------------------------------------------------------------------

/-- The head of a function keeps the base of the caller on the stack and takes the bytes of
the frame, if there are any.
-/
theorem run_setUp (exposed : Word → Bool) (m : Machine) (frame : Int)
    : ∃ m', m.run exposed (Listing.setUp frame) = some m'
        ∧ m'.StackAt (m.registers .rsp - 8 - .ofInt 64 (max 0 frame)) (m.registers .rsp - 8)
        ∧ (∀ r, r ≠ .rsp → r ≠ .rbp → m'.registers r = m.registers r)
        ∧ m'.memory = m.memory.writeWord (m.registers .rsp - 8) (m.registers .rbp)
        ∧ m'.answers = m.answers ∧ m'.calls = m.calls := by
  unfold Listing.setUp
  split
  · next some =>
      rw [Int.max_eq_right (Int.le_of_lt some)]
      refine ⟨_, rfl, ⟨rfl, rfl⟩, ?_, rfl, rfl, rfl⟩
      intro r notRsp notRbp
      simp [Machine.push, notRsp, notRbp]
  · next none =>
      rw [Int.max_eq_left (Int.not_lt.mp none)]
      refine ⟨_, rfl, ⟨by simp [Machine.push], rfl⟩, ?_, rfl, rfl, rfl⟩
      intro r notRsp notRbp
      simp [Machine.push, notRsp, notRbp]

/-- The register of a parameter can be read. -/
theorem read?_register {v : Variable} {r : Register} (found : v.register? = some r)
    : m.read? (.reg r) = some (m.registers r) := by
  obtain ⟨index, -, own⟩ := Option.bind_eq_some_iff.mp found
  have plain : ∀ r ∈ Register.forArguments, r ≠ .al := by decide
  have notAl := plain r (List.mem_of_getElem? own)
  cases r with
  | al => exact absurd rfl notAl
  | rax | rdi | rsi | rdx | rcx | r8 | r9 | rsp | rbp => rfl

/-- Storing the parameters leaves the stack. -/
theorem run_spills_stackAt (exposed : Word → Bool) {vs : List Variable} {ls : Listing}
    (m : Machine) (spills : Listing.Spills vs ls)
    : ∃ m', m.run exposed ls = some m'
        ∧ m'.StackAt (m.registers .rsp) (m.registers .rbp) := by
  induction spills generalizing m with
  | nil => exact ⟨m, rfl, rfl, rfl⟩
  | @cons v line vs ls head tail ih =>
      obtain ⟨r, found, rfl⟩ := head
      obtain ⟨m', rest, stack⟩ := ih { m with
        memory := m.memory.writeWord (v.address (m.registers .rbp)) (m.registers r) }
      refine ⟨m', ?_, stack⟩
      simp only [run, perform, read?_register found, Option.bind_eq_bind, Option.bind_some]
      exact rest

end Machine

-----------------------------------------------------------------------------------------
-- Runs of a function
-----------------------------------------------------------------------------------------

/-- The run is in lines with heights and its stack is as high as the line says. -/
def Config.OnHeight (first : Nat) (height : Nat → Option Int) (top base : Word)
    : Config → Prop
  | ⟨.returned _, _⟩ => True
  | ⟨.line n, m⟩ =>
    first ≤ n ∧ ∀ low, height n = some low → m.StackAt (top - .ofInt 64 (8 * low)) base

section

variable {exposed : Word → Bool} {code : Listing} {heightOf : Label → Int} {first n : Nat}
  {height : Nat → Option Int} {top base : Word} {m m' : Machine}

/-- A run stays on its height where a plain instruction is performed. -/
theorem Machine.StackAt.perform {i : Instr} {low : Int} (plain : i.isPlain)
    (stack : m.StackAt (top - .ofInt 64 (8 * low)) base)
    (performed : m.perform exposed i = some m')
    : m'.StackAt (top - .ofInt 64 (8 * (low + i.rise))) base := by
  have moved := Machine.stackAt_perform plain performed
  rw [stack.rsp, stack.rbp] at moved
  have sum : BitVec.ofInt 64 (8 * (low + i.rise))
      = .ofInt 64 (8 * low) + .ofInt 64 (8 * i.rise) := by
    rw [Int.mul_add, BitVec.ofInt_add]
  rw [sum]
  have apart (a b c : Word) : a - (b + c) = a - b - c := by bv_omega
  rw [apart]
  exact moved

/-- An instruction that fits gives up the frame, is plain or jumps. -/
theorem Line.Fits.instr {i : Instr} {low : Int} {high : Option Int}
    (fits : Line.Fits heightOf (some low) (.instr i) high)
    : high = none ∨ (i.isPlain ∧ high = some (low + i.rise)) ∨ (∃ l, i = .jmp l)
      ∨ ∃ condition l, i = .jmpIf condition l := by
  unfold Line.Fits at fits
  split at fits
  all_goals simp_all

/-- Once the frame is given up, nothing is left to keep. -/
theorem Graded.onHeight_left (graded : Graded heightOf code first height) {line : Line}
    {c : Config} (inside : first ≤ n) (none : height n = none) (here : code[n]? = some line)
    (moves : Config.Moves exposed code n m line c)
    : c.OnHeight first height top base := by
  have fits := graded.fits n line inside here
  rw [none] at fits
  cases moves with
  | ret => trivial
  | label l => cases fits.1
  | perform performed =>
      rcases fits with ⟨-, next⟩ | same
      · refine ⟨Nat.le_succ_of_le inside, ?_⟩
        intro low at'
        rw [next] at at'
        cases at'
      · cases same
        cases performed
  | directive | jmp | jumps | passes =>
      rcases fits with ⟨same, -⟩ | same
      · cases same
      · cases same

/-- A run at a line with a height passes to lines with the heights that follow. -/
theorem Graded.onHeight_moves (graded : Graded heightOf code first height) {line : Line}
    {low : Int} {c : Config} (inside : first ≤ n) (at' : height n = some low)
    (stack : m.StackAt (top - .ofInt 64 (8 * low)) base) (here : code[n]? = some line)
    (moves : Config.Moves exposed code n m line c)
    : c.OnHeight first height top base := by
  have fits := graded.fits n line inside here
  have later : first ≤ n + 1 := Nat.le_succ_of_le inside
  rw [at'] at fits
  -- a height that is known is the only one there is
  have only {k : Nat} {known : Int} {m : Machine} (known' : height k = some known)
      (stack : m.StackAt (top - .ofInt 64 (8 * known)) base)
      : ∀ low, height k = some low → m.StackAt (top - .ofInt 64 (8 * low)) base := by
    intro low same
    cases known'.symm.trans same
    exact stack
  cases moves with
  | ret => trivial
  | directive d => exact fits.elim
  | label l => exact ⟨later, only fits.2 stack⟩
  | jmp target =>
      obtain ⟨same, own⟩ := fits
      obtain ⟨inside', height'⟩ := graded.target own target
      exact ⟨inside', only height' (same ▸ stack)⟩
  | jumps target =>
      obtain ⟨same, own, -⟩ := fits
      obtain ⟨inside', height'⟩ := graded.target own target
      exact ⟨inside', only height' (same ▸ stack)⟩
  | passes condition l => exact ⟨later, only fits.2.2 stack⟩
  | @perform i m' performed =>
      rcases fits.instr with none | ⟨plain, next⟩ | ⟨l, rfl⟩ | ⟨condition, l, rfl⟩
      · refine ⟨later, ?_⟩
        intro low same
        rw [none] at same
        cases same
      · exact ⟨later, only next (stack.perform plain performed)⟩
      · cases performed
      · cases performed

/-- A step keeps the stack on the height of the line. -/
theorem Graded.onHeight_step (graded : Graded heightOf code first height) {c c' : Config}
    (before : c.OnHeight first height top base) (step : c.step? exposed code = some c')
    : c'.OnHeight first height top base := by
  obtain ⟨control, m⟩ := c
  cases control with
  | returned => cases step
  | line n =>
      obtain ⟨inside, stack⟩ := before
      obtain ⟨line, here, moves⟩ := Config.moves_of_step? step
      cases at' : height n with
      | none => exact graded.onHeight_left inside at' here moves
      | some low => exact graded.onHeight_moves inside at' (stack low at') here moves

/-- So does a run. -/
theorem Graded.onHeight_reaches (graded : Graded heightOf code first height) {c c' : Config}
    (before : c.OnHeight first height top base) (reaches : c.Reaches exposed code c')
    : c'.OnHeight first height top base := by
  induction reaches with
  | refl => exact before
  | tail earlier step ih => exact graded.onHeight_step ih step

end

-----------------------------------------------------------------------------------------
-- Calls
-----------------------------------------------------------------------------------------

/-- Taking a multiple of sixteen keeps the place among sixteen bytes. -/
theorem toNat_sub_mod_sixteen (place : Word) {bytes : Int} (whole : bytes % 16 = 0)
    : (place - .ofInt 64 bytes).toNat % 16 = place.toNat % 16 := by
  rw [BitVec.toNat_sub, BitVec.toNat_ofInt]
  omega

section

variable {f : Function} {g g' : GenState} {code : Listing} {exposed : Word → Bool} {n : Nat}
  {m m' : Machine}

/-- The lines before the body are the head of the function and store its parameters. -/
theorem Emit.function_take (h : (Emit.function f).Emits g code g' ())
    : ∃ l₁, Listing.Spills f.params l₁
        ∧ code.take f.bodyLine = Listing.prologue f.name f.frame ++ l₁ := by
  obtain ⟨l₁, l₂, spills, -, lines⟩ := function_emits h
  refine ⟨l₁, spills, ?_⟩
  have length : (Listing.prologue f.name f.frame ++ l₁).length = f.bodyLine := by
    rw [List.length_append, Function.bodyLine, spills.length_eq]
  rw [lines, ← List.append_assoc, ← length, List.take_left]

/-- A run of a function is still in its head or has its stack on the height of its line. -/
theorem Emit.function_onHeight {heightOf : Label → Int} {height : Nat → Option Int} {c : Config}
    (h : (Emit.function f).Emits g code g' ())
    (graded : Graded heightOf code f.bodyLine height)
    (reaches : Config.Reaches exposed code ⟨.line 1, m⟩ c)
    : (∃ n < f.bodyLine, c.control = .line n)
      ∨ c.OnHeight f.bodyLine height (m.registers .rsp - 8 - .ofInt 64 (max 0 f.frame))
          (m.registers .rsp - 8) := by
  obtain ⟨l₁, l₂, spills, -, standing⟩ := function_at h
  rw [← List.cons_append] at standing
  have length : 1 + (Line.label (.symbol f.name) :: (Listing.setUp f.frame ++ l₁)).length
      = f.bodyLine := by
    rw [List.length_cons, List.length_append, spills.length_eq.symm, Function.bodyLine,
      Listing.prologue, List.length_cons, List.length_cons]
    omega
  obtain ⟨m₁, run₁, stack₁, -⟩ := Machine.run_setUp exposed m f.frame
  obtain ⟨m₂, run₂, stack₂⟩ := Machine.run_spills_stackAt exposed m₁ spills
  rw [stack₁.rsp, stack₁.rbp] at stack₂
  have run : m.run exposed (.label (.symbol f.name) :: (Listing.setUp f.frame ++ l₁)) = some m₂ :=
    Machine.run_append_of_run run₁ run₂
  have first := (Listing.at_append.mp standing).1
  rcases Config.reaches_of_reaches_run first run reaches with ⟨k, below, at'⟩ | later
  · exact .inl ⟨1 + k, by omega, at'⟩
  · rw [length] at later
    have start : Config.OnHeight f.bodyLine height
        (m.registers .rsp - 8 - .ofInt 64 (max 0 f.frame)) (m.registers .rsp - 8)
        ⟨.line f.bodyLine, m₂⟩ := by
      refine ⟨Nat.le_refl _, ?_⟩
      intro low same
      cases graded.start.symm.trans same
      exact ⟨by simp [stack₂.rsp], stack₂.rbp⟩
    exact .inr (graded.onHeight_reaches start later)

/-- There is no call in the head of a function. -/
theorem Emit.function_call_inside {name : String} (h : (Emit.function f).Emits g code g' ())
    (here : code[n]? = some (.instr (.call name)))
    : f.bodyLine ≤ n := by
  by_contra before
  obtain ⟨l₁, spills, head⟩ := function_take h
  have member : Line.instr (.call name) ∈ Listing.prologue f.name f.frame ++ l₁ := by
    rw [← head]
    refine List.mem_of_getElem? (i := n) ?_
    rw [List.getElem?_take_of_lt (Nat.lt_of_not_le before)]
    exact here
  rcases List.mem_append.mp member with inPrologue | inSpills
  · simp only [Listing.prologue, Listing.setUp] at inPrologue
    split at inPrologue
    · simp at inPrologue
    · simp at inPrologue
  · obtain ⟨v, r, same⟩ := spills.eq_mov inSpills
    cases same

/-- Calls are made with the stack at a multiple of sixteen, if the function is. -/
theorem Emit.function_aligned {name : String} (h : (Emit.function f).Emits g code g' ())
    (called : (m.registers .rsp).toNat % 16 = 8)
    (reaches : Config.Reaches exposed code ⟨.line 1, m⟩ ⟨.line n, m'⟩)
    (here : code[n]? = some (.instr (.call name)))
    : (m'.registers .rsp).toNat % 16 = 0 := by
  obtain ⟨heightOf, height, graded⟩ := function_graded h
  have inside := function_call_inside h here
  rcases function_onHeight h graded reaches with ⟨k, before, same⟩ | ⟨-, stack⟩
  · cases same
    omega
  · cases at' : height n with
    | none =>
        have fits := graded.fits n _ inside here
        rw [at'] at fits
        rcases fits with ⟨same, -⟩ | same
        · cases same
        · cases same
    | some low =>
        have even := graded.even_of_call inside at' here
        have whole : 8 * low % 16 = 0 := by omega
        have frame : max 0 f.frame % 16 = 0 := by
          have := f.frame_mod
          omega
        rw [(stack low at').rsp, toNat_sub_mod_sixteen _ whole, toNat_sub_mod_sixteen _ frame]
        bv_omega

end

/-- In the code of every function, the height of the stack at a line is the same along all
paths from the body on, it is never negative, and it is even at calls. The head of the
function takes a multiple of sixteen bytes, so that a function that is called with the
stack eight bytes off a multiple of sixteen makes all its calls at multiples of sixteen.
-/
theorem function_callsAligned (f : Function) (g : GenState)
    (generated : (Emit.function f g).outcome = .ok ())
    : (∀ n low low', (Emit.function f g).lines.HeightAt f.bodyLine n low
        → (Emit.function f g).lines.HeightAt f.bodyLine n low' → low = low')
      ∧ (∀ n low, (Emit.function f g).lines.HeightAt f.bodyLine n low → 0 ≤ low)
      ∧ (∀ n low name, (Emit.function f g).lines.HeightAt f.bodyLine n low
        → (Emit.function f g).lines[n]? = some (.instr (.call name)) → low % 2 = 0)
      ∧ (∃ spills, Listing.Spills f.params spills
        ∧ (Emit.function f g).lines.take f.bodyLine
          = Listing.prologue f.name f.frame ++ spills)
      ∧ f.frame % 16 = 0
      ∧ (Emit.function f g).lines.line? (.symbol f.name) = some 1
      ∧ ∀ exposed m m' n name, (m.registers .rsp).toNat % 16 = 8
        → Config.Reaches exposed (Emit.function f g).lines ⟨.line 1, m⟩ ⟨.line n, m'⟩
        → (Emit.function f g).lines[n]? = some (.instr (.call name))
        → (m'.registers .rsp).toNat % 16 = 0 := by
  have code := Emit.emits_of_outcome generated
  obtain ⟨heightOf, height, graded⟩ := Emit.function_graded code
  refine ⟨?_, ?_, ?_, Emit.function_take code, f.frame_mod, ?_, ?_⟩
  · intro n low low' path path'
    obtain ⟨-, at', -⟩ := graded.heightAt path
    obtain ⟨-, at'', -⟩ := graded.heightAt path'
    exact Option.some.inj (at'.symm.trans at'')
  · intro n low path
    exact (graded.heightAt path).2.2
  · intro n low name path here
    obtain ⟨inside, at', -⟩ := graded.heightAt path
    exact graded.even_of_call inside at' here
  · obtain ⟨l₁, l₂, -, -, standing⟩ := Emit.function_at code
    exact standing.line?_eq (Emit.function_labels_nodup code)
  · intro exposed m m' n name called reaches here
    exact Emit.function_aligned code called reaches here

namespace Sum

/-- A function whose variables do not fit together, with a call while a word is on the
stack.
-/
def function : Function :=
  ⟨"f", 0, [⟨"a", .int, -3, 0, 0, none⟩, ⟨"b", .int, 20, 0, 0, none⟩],
    [.ret (.binary .add (.constant 1) (.call "g" []))]⟩

/-- Its code. -/
def code : Listing :=
  (Emit.function function ⟨1, 0⟩).lines

/-- A caller that keeps to the calling convention. -/
def caller : Machine :=
  ⟨fun r => if r = .rsp then 4104 else 0, none, fun _ => 0, [], []⟩

/-- The call is made with two words on the stack, one of them for alignment. -/
theorem heightAt_call : code.HeightAt function.bodyLine 8 2 := by
  have first : code[5]? = some (.instr (.push (.imm 1))) := rfl
  have second : code[6]? = some (.instr (.arith .sub (.reg .rsp) (.imm 8))) := rfl
  have third : code[7]? = some (.instr (.mov (.reg .rax) (.imm 0))) := rfl
  have pushed : code.HeightAt function.bodyLine 6 1 :=
    .step .start first (by decide) (.next first rfl)
  have aligned : code.HeightAt function.bodyLine 7 2 :=
    .step pushed second (by decide) (.next second rfl)
  exact .step aligned third (by decide) (.next third rfl)

/-- The code comes to the call. -/
theorem reaches_call
    : ∃ m', Config.Reaches (fun _ => false) code ⟨.line 1, caller⟩ ⟨.line 8, m'⟩ := by
  have standing : code.At 1 ((code.drop 1).take 7) := List.take_prefix _ _
  exact ⟨_, Config.reaches_of_run standing rfl⟩

end Sum

/-- The call of `Sum` finds the stack at a multiple of sixteen. -/
theorem function_callsAligned_sum
    : (Emit.function Sum.function ⟨1, 0⟩).outcome = .ok ()
      ∧ Sum.code[8]? = some (.instr (.call "g"))
      ∧ Sum.code.HeightAt Sum.function.bodyLine 8 2
      ∧ (∀ low, Sum.code.HeightAt Sum.function.bodyLine 8 low → low = 2)
      ∧ ∃ m', Config.Reaches (fun _ => false) Sum.code ⟨.line 1, Sum.caller⟩ ⟨.line 8, m'⟩
          ∧ (m'.registers .rsp).toNat % 16 = 0 := by
  have generated : (Emit.function Sum.function ⟨1, 0⟩).outcome = .ok () := by with_unfolding_all rfl
  obtain ⟨unique, -, -, -, -, -, aligned⟩ := function_callsAligned Sum.function ⟨1, 0⟩ generated
  obtain ⟨m', reaches⟩ := Sum.reaches_call
  have called : Sum.code[8]? = some (.instr (.call "g")) := rfl
  refine ⟨generated, called, Sum.heightAt_call, ?_, m', reaches, ?_⟩
  · intro low path
    exact unique 8 low 2 path Sum.heightAt_call
  · exact aligned _ Sum.caller m' 8 "g" (by decide) reaches called

end SlotC
