import SlotC.Proofs.Code.Frame
import SlotC.Proofs.Correctness.Stmt
import SlotC.Proofs.Machine.Alignment

/-! The code of a function against its meaning. Called with its arguments in the argument
registers, the code returns to its caller with the result in `rax` and with the stack, the
base and the memory of the caller as they were.
-/

namespace SlotC

/-- The source text runs with the memory, the answers and the calls of the machine. -/
def Machine.store (m : Machine) : Store :=
  ⟨m.memory, m.answers, m.calls⟩

/-- Bytes of the stack that the code of a function uses, with the place where it keeps the
base of its caller.
-/
def Function.stackUse (f : Function) : Nat :=
  8 + f.frame.toNat + 8 * roomRest f.body

section

variable {f : Function} {base : Word} {exposed : Word → Bool} {m m' : Machine}

-----------------------------------------------------------------------------------------
-- The frame of a function
-----------------------------------------------------------------------------------------

/-- The variables lie in the frame. -/
theorem Function.LaidOut.owns_bounds (laid : f.LaidOut) (fits : f.frame.toNat ≤ base.toNat)
    {place : Word} (owned : f.Owns base place)
    : base.toNat - f.frame.toNat ≤ place.toNat ∧ place.toNat < base.toNat := by
  obtain ⟨v, declared, j, inside, i, below, rfl⟩ := owned
  obtain ⟨low, -⟩ := laid.locals v declared
  have high := Function.offset_le_frameSize declared
  obtain ⟨positive, deep, -⟩ := laid.frame_bounds
  obtain ⟨offset, same⟩ := Int.eq_ofNat_of_zero_le (Int.le_trans (Int.natCast_nonneg _) low)
  rw [same, slotSize] at low
  rw [same] at high
  have inFrame : offset ≤ f.frame.toNat := by omega
  have inSlots : 8 * j + i < offset := by omega
  have address : (v.address base + .ofNat 64 (8 * j) + .ofNat 64 i).toNat
      = base.toNat - offset + 8 * j + i := by
    rw [Variable.address, same, BitVec.ofInt_natCast]
    bv_omega
  omega

/-- Storing words in variables changes only bytes of variables. -/
theorem stored_outside {values : List (Variable × Word)} {memory : Memory} {place : Word}
    (declared : ∀ p ∈ values, p.1 ∈ f.locals) (hidden : ¬ f.Owns base place)
    : stored base values memory place = memory place := by
  induction values generalizing memory with
  | nil => rfl
  | cons value values ih =>
      obtain ⟨own, others⟩ := List.forall_mem_cons.mp declared
      refine (ih others).trans (Memory.writeWord_outside fun inside => hidden ?_)
      exact (Function.hasSlot_address own).owns_of_lt inside

/-- Storing the same words keeps memories in agreement. -/
theorem stored_congr {values : List (Variable × Word)} {first second : Memory} {place : Word}
    (same : first place = second place)
    : stored base values first place = stored base values second place := by
  induction values generalizing first second with
  | nil => exact same
  | cons value values ih => exact ih (Memory.writeWord_congr same)

-----------------------------------------------------------------------------------------
-- The head and the end of a function
-----------------------------------------------------------------------------------------

/-- The parameters are stored from their registers. -/
theorem run_spills (exposed : Word → Bool) {vs : List Variable} {ls : Listing}
    {words : List Word} (m : Machine) (spills : Listing.Spills vs ls)
    (given : List.Forall₂ (fun v word => ∃ r, v.register? = some r ∧ m.registers r = word)
      vs words)
    : m.run exposed ls
      = some { m with memory := stored (m.registers .rbp) (vs.zip words) m.memory } := by
  induction spills generalizing m words with
  | nil =>
      cases given
      rfl
  | @cons v line vs ls head tail ih =>
      obtain ⟨r, found, rfl⟩ := head
      cases given with
      | @cons _ word _ words own others =>
          obtain ⟨r', found', rfl⟩ := own
          obtain rfl : r = r' := Option.some.inj (found.symm.trans found')
          have performed : m.perform exposed (.mov (.stack v.offset) (.reg r))
              = some { m with memory :=
                  m.memory.writeWord (v.address (m.registers .rbp)) (m.registers r) } := by
            simp only [Machine.perform, Machine.read?_register found, Option.bind_eq_bind,
              Option.bind_some]
            rfl
          simp only [Machine.run, performed, Option.bind_eq_bind, Option.bind_some]
          exact ih _ others

/-- The end of a function goes back to the caller. -/
theorem reaches_epilogue (exposed : Word → Bool) {code : Listing} {n : Nat} (m : Machine)
    (standing : code.At n Listing.epilogue)
    : ∃ m', Config.Reaches exposed code ⟨.line n, m⟩
          ⟨.returned (m.memory.readWord (m.registers .rbp + 8)), m'⟩
        ∧ m'.registers .rsp = m.registers .rbp + 16
        ∧ m'.registers .rbp = m.memory.readWord (m.registers .rbp)
        ∧ (∀ r, r ≠ .rsp → r ≠ .rbp → m'.registers r = m.registers r)
        ∧ m'.memory = m.memory ∧ m'.answers = m.answers ∧ m'.calls = m.calls := by
  have parts : Listing.epilogue
      = [.instr (.mov (.reg .rsp) (.reg .rbp)), .instr (.pop .rbp)] ++ [.instr .ret] := rfl
  rw [parts] at standing
  obtain ⟨before, last⟩ := Listing.at_append.mp standing
  obtain ⟨here, -⟩ := Listing.at_cons.mp last
  have run : m.run exposed [.instr (.mov (.reg .rsp) (.reg .rbp)), .instr (.pop .rbp)]
      = some ((m.set .rsp (m.registers .rbp)).pop .rbp) := rfl
  refine ⟨((m.set .rsp (m.registers .rbp)).pop .rbp).drop,
    (Config.reaches_of_run before run).trans (.single ?_), ?_, rfl, ?_, rfl, rfl, rfl⟩
  · simp only [Config.step?, here]
    rfl
  · simp only [Machine.drop, Machine.pop, Machine.registers_set, if_true, reduceCtorEq, if_false]
    bv_omega
  · intro r notRsp notRbp
    simp [Machine.drop, Machine.pop, notRsp, notRbp]

-----------------------------------------------------------------------------------------
-- Calls of a function
-----------------------------------------------------------------------------------------

/-- The parameters of a function find their arguments in their registers. -/
theorem Function.LaidOut.given (laid : f.LaidOut) {arguments : List Word}
    (length : arguments.length = f.paramCount)
    (passed : arguments <+: Register.forArguments.map m.registers)
    : List.Forall₂ (fun v word => ∃ r, v.register? = some r ∧ m.registers r = word)
        f.params arguments := by
  have count : f.params.length = f.paramCount := by
    simpa using congrArg List.length laid.indices
  refine List.forall₂_iff_get.mpr ⟨count.trans length.symm, ?_⟩
  intro i inParams inArguments
  have index : (f.params.get ⟨i, inParams⟩).argIndex = some i := by
    have own : (f.params.map Variable.argIndex)[i]? = ((List.range f.paramCount).map some)[i]? :=
      congrArg (·[i]?) laid.indices
    simpa [inParams, count ▸ inParams] using own
  obtain ⟨more, all⟩ := passed
  have word
      : (Register.forArguments.map m.registers)[i]? = some (arguments.get ⟨i, inArguments⟩) := by
    rw [← all, List.getElem?_append_left inArguments]
    exact List.getElem?_eq_getElem inArguments
  rw [List.getElem?_map, Option.map_eq_some_iff] at word
  obtain ⟨r, register, held⟩ := word
  exact ⟨r, by rw [Variable.register?, index]; exact register, held⟩

/-- Only parameters take arguments. -/
theorem Function.LaidOut.passed_eq (laid : f.LaidOut) {arguments : List Word} {memory : Memory}
    (length : arguments.length = f.params.length)
    : f.passed base arguments memory = stored base (f.params.zip arguments) memory := by
  obtain ⟨others, all⟩ := laid.params
  have zipped : f.locals.zip arguments = f.params.zip arguments := by
    rw [← all, ← List.append_nil arguments, List.zip_append length.symm]
    simp
  rw [Function.passed, zipped]

/-- The state of a function after its head, called in the state before it. -/
structure Entered (f : Function) (base : Word) (s : Store) (m m' : Machine) : Prop where
  ready : Ready f base (roomRest f.body) none s m'
  below : ∀ place, f.Owns base place → place < base
  rsp : m'.registers .rsp ≤ base
  saved : m'.memory.readWord base = m.registers .rbp
  kept : ∀ place, m.registers .rsp ≤ place → m'.memory place = m.memory place

/-- The head of a function puts the arguments into the parameters. -/
theorem run_head (exposed : Word → Bool) (laid : f.LaidOut) {l₁ : Listing}
    (spills : Listing.Spills f.params l₁) {arguments : List Word}
    (length : arguments.length = f.paramCount)
    (passed : arguments <+: Register.forArguments.map m.registers)
    (fits : f.stackUse ≤ (m.registers .rsp).toNat) (start : base = m.registers .rsp - 8)
    : ∃ m', m.run exposed (Listing.setUp f.frame ++ l₁) = some m'
        ∧ Entered f base { m.store with memory := f.passed base arguments m.memory } m m' := by
  obtain ⟨positive, -, bound⟩ := laid.frame_bounds
  obtain ⟨m₁, run₁, ⟨rsp, rbp⟩, others, memory, answers₁, calls₁⟩ :=
    Machine.run_setUp exposed m f.frame
  rw [Int.max_eq_right positive] at rsp
  rw [← start] at rsp rbp memory
  have registers : Register.forArguments.map m₁.registers
      = Register.forArguments.map m.registers := by
    have plain : ∀ r ∈ Register.forArguments, r ≠ .rsp ∧ r ≠ .rbp := by decide
    exact List.map_congr_left fun r member => others r (plain r member).1 (plain r member).2
  have given := laid.given length (registers ▸ passed)
  have run₂ := run_spills exposed m₁ spills given
  rw [rbp] at run₂
  -- the frame lies below the place where the base of the caller is kept
  have room : 8 + f.frame.toNat + 8 * roomRest f.body ≤ (m.registers .rsp).toNat := fits
  have baseNat : base.toNat = (m.registers .rsp).toNat - 8 := by
    rw [start]
    bv_omega
  have lowNat : (base - .ofInt 64 f.frame).toNat = base.toNat - f.frame.toNat := by
    obtain ⟨bytes, frame⟩ := Int.eq_ofNat_of_zero_le positive
    rw [frame, BitVec.ofInt_natCast]
    simp only [frame, Int.toNat_natCast] at room ⊢
    bv_omega
  have inFrame {place : Word} (owned : f.Owns base place) := laid.owns_bounds (by omega) owned
  have declared : ∀ p ∈ f.params.zip arguments, p.1 ∈ f.locals := by
    rintro ⟨v, word⟩ member
    exact laid.params.subset (List.of_mem_zip member).1
  have outside {place : Word} (hidden : ¬ f.Owns base place)
      : stored base (f.params.zip arguments) m₁.memory place = m₁.memory place :=
    stored_outside declared hidden
  refine ⟨_, Machine.run_append_of_run run₁ run₂, ⟨⟨rbp, ?_, ?_, ?_⟩, ?_, ?_, ?_⟩, ?_, ?_, ?_, ?_⟩
  · intro place owned
    obtain ⟨low, high⟩ := inFrame owned
    rw [laid.passed_eq given.length_eq.symm]
    apply stored_congr
    rw [memory]
    apply Memory.writeWord_outside
    simp only [Frame.maxSize] at bound
    bv_omega
  · exact answers₁
  · rw [calls₁]
    exact List.forall₂_same.mpr fun call _ => ⟨rfl, List.prefix_refl _⟩
  · simp [Machine.Holds]
  · intro place owned
    obtain ⟨low, high⟩ := inFrame owned
    rw [BitVec.le_def]
    simp only [rsp]
    omega
  · simp only [rsp]
    omega
  · intro place owned
    exact (inFrame owned).2
  · rw [BitVec.le_def]
    simp only [rsp]
    omega
  · refine Eq.trans (Memory.readWord_congr fun i below => ?_)
      (Memory.readWord_writeWord m.memory base (m.registers .rbp))
    have hidden : ¬ f.Owns base (base + .ofNat 64 i) := by
      intro owned
      have := inFrame owned
      bv_omega
    exact (outside hidden).trans (congrFun memory _)
  · intro place high
    have hidden : ¬ f.Owns base place := by
      intro owned
      have := inFrame owned
      bv_omega
    refine (outside hidden).trans ((congrFun memory _).trans ?_)
    apply Memory.writeWord_outside
    bv_omega

/-- The end of a function finds the base and the address of the caller where they were. -/
theorem Entered.returns (exposed : Word → Bool) {s s' : Store} {m₂ : Machine} {code : Listing}
    {k : Nat} (entered : Entered f base s m m') (leaves : Leaves f base s' 0 m' m₂)
    (start : base = m.registers .rsp - 8) (high : 8 ≤ (m.registers .rsp).toNat)
    (top : (m.registers .rsp).toNat + 8 ≤ 2 ^ 64) (standing : code.At k Listing.epilogue)
    : ∃ m₃, Config.Reaches exposed code ⟨.line k, m₂⟩ ⟨.returned m.top, m₃⟩
        ∧ m₃.registers .rax = m₂.registers .rax
        ∧ m₃.registers .rsp = m.registers .rsp + 8
        ∧ m₃.registers .rbp = m.registers .rbp
        ∧ (∀ place, m.registers .rsp ≤ place → m₃.memory place = m.memory place)
        ∧ (∀ place, f.Owns base place → m₃.memory place = s'.memory place)
        ∧ m₃.answers = s'.answers ∧ List.Forall₂ Call.MadeBy s'.calls m₃.calls := by
  obtain ⟨m₃, reaches, rsp, rbp, others, memory, answers, calls⟩ :=
    reaches_epilogue exposed m₂ standing
  have kept {place : Word} (above : base ≤ place) : m₂.memory place = m'.memory place := by
    apply leaves.kept place (BitVec.le_trans entered.rsp above)
    intro owned
    exact absurd (entered.below place owned) (by simpa using above)
  have upper {place : Word} (above : m.registers .rsp ≤ place)
      : m₂.memory place = m.memory place := by
    rw [kept (by rw [start]; bv_omega), entered.kept place above]
  have back : m₂.registers .rbp + 8 = m.registers .rsp := by
    rw [leaves.agrees.rbp, start]
    bv_omega
  have address : m₂.memory.readWord (m₂.registers .rbp + 8) = m.top := by
    rw [back]
    apply Memory.readWord_congr
    intro i below
    exact upper (by bv_omega)
  have saved : m₂.memory.readWord (m₂.registers .rbp) = m.registers .rbp := by
    rw [leaves.agrees.rbp, ← entered.saved]
    apply Memory.readWord_congr
    intro i below
    exact kept (by rw [start]; bv_omega)
  rw [address] at reaches
  refine ⟨m₃, reaches, others .rax (by decide) (by decide), ?_, rbp.trans saved, ?_, ?_, ?_, ?_⟩
  · rw [rsp, ← back]
    bv_omega
  · intro place above
    rw [memory, upper above]
  · rw [memory]
    exact leaves.agrees.memory
  · rw [answers]
    exact leaves.agrees.answers
  · rw [calls]
    exact leaves.agrees.calls

/-- The body of a function comes to the end of the function, with or without a return. -/
theorem Task.Ends.atEnd {code : Listing} {n stop : Nat} {s : Store} {ss : List Stmt} {o : Outcome}
    (ends : (Task.rest ss).Ends f base code n stop m s o)
    (standing : code.At stop Listing.epilogue)
    : ∃ k m', code.At k Listing.epilogue ∧ Goes f base code n m k m'
        ∧ SlotC.Leaves f base s 0 m m' ∧ m'.Holds o.result := by
  cases o with
  | next value =>
      obtain ⟨m', goes, leaves, holds⟩ := ends
      exact ⟨stop, m', standing, goes, leaves, holds⟩
  | returned value =>
      obtain ⟨k, m', standing', goes, leaves, rax⟩ := ends
      exact ⟨k, m', standing', goes, leaves, Machine.holds_some.mpr rax⟩

end

/-- Compiled functions keep their meaning. Whenever a run of a function that was read from
tokens ends, the lines that were emitted for it, run from its label with the arguments in
their registers, return to the caller. They leave the result of the run in `rax`, the
variables as the run leaves them, and the stack, the base and the memory of the caller as
they were. A function without calls takes no answers, so it may have none.
-/
theorem function_keepsMeaning (ts : List Token) (program : Program) (f : Function)
    (read : Program.ofTokens ts = .ok program) (member : f ∈ program.functions) (g : GenState)
    (generated : (Emit.function f g).outcome = .ok ()) (m : Machine) (arguments : List Word)
    (count : arguments.length = f.paramCount)
    (passed : arguments <+: Register.forArguments.map m.registers)
    (room : f.stackUse ≤ (m.registers .rsp).toNat)
    (top : (m.registers .rsp).toNat + 8 ≤ 2 ^ 64) (result : Option Word) (s' : Store)
    (runs : f.Runs (m.registers .rsp - 8) arguments m.store result s')
    : ∃ n m', (Emit.function f g).lines.line? (.symbol f.name) = some n
        ∧ Config.Reaches (f.exposed (m.registers .rsp - 8)) (Emit.function f g).lines
            ⟨.line n, m⟩ ⟨.returned m.top, m'⟩
        ∧ (∀ word ∈ result, m'.registers .rax = word)
        ∧ m'.registers .rsp = m.registers .rsp + 8
        ∧ m'.registers .rbp = m.registers .rbp
        ∧ (∀ place, m.registers .rsp ≤ place → m'.memory place = m.memory place)
        ∧ (∀ place, f.Owns (m.registers .rsp - 8) place → m'.memory place = s'.memory place)
        ∧ m'.answers = s'.answers ∧ List.Forall₂ Call.MadeBy s'.calls m'.calls := by
  have laid := Program.laidOut_of_ofTokens read f member
  have code := Emit.emits_of_outcome generated
  have distinct := Emit.function_labels_nodup code
  obtain ⟨o, exec, rfl⟩ := runs
  -- the parts of the code stand one after the other, from the label at the second line on
  obtain ⟨l₁, l₂, spills, body, standing⟩ := Emit.function_at code
  obtain ⟨-, after⟩ := Listing.at_cons.mp standing
  obtain ⟨head, after⟩ := Listing.at_append.mp after
  obtain ⟨inner, ending⟩ := Listing.at_append.mp after
  obtain ⟨m₁, run, entered⟩ := run_head (f.exposed (m.registers .rsp - 8)) laid spills count
    passed room rfl
  have ends := exec.simulated distinct ⟨_, body⟩ inner entered.ready (Nat.le_refl _)
  obtain ⟨k, m₂, last, goes, leaves, holds⟩ := ends.atEnd ending
  have high : 8 ≤ (m.registers .rsp).toNat := by
    unfold Function.stackUse at room
    omega
  obtain ⟨m₃, returns, rax, others⟩ := entered.returns (f.exposed (m.registers .rsp - 8)) leaves
    rfl high top last
  refine ⟨1, m₃, standing.line?_eq distinct, ?_, fun word held => rax.trans (holds word held),
    others⟩
  have labelled : Goes f (m.registers .rsp - 8) (Emit.function f g).lines 1 m 2 m :=
    label_goes (Listing.at_append.mp standing).1 m
  have reached := (labelled.trans (Config.reaches_of_run head run)).trans goes
  exact Relation.ReflTransGen.trans reached returns

namespace Countdown

/-- A function with a loop, of one parameter. -/
def tokens : List Token :=
  [⟨.type .int, "int", 0, 0⟩, ⟨.identifier, "f", 0, 4⟩, ⟨.openParen, "(", 0, 5⟩,
    ⟨.type .int, "int", 0, 6⟩, ⟨.identifier, "a", 0, 10⟩, ⟨.closeParen, ")", 0, 11⟩,
    ⟨.openBrace, "\x7b", 0, 13⟩, ⟨.whileWord, "while", 0, 15⟩, ⟨.openParen, "(", 0, 21⟩,
    ⟨.identifier, "a", 0, 22⟩, ⟨.closeParen, ")", 0, 23⟩, ⟨.identifier, "a", 0, 25⟩,
    ⟨.assign, "=", 0, 27⟩, ⟨.identifier, "a", 0, 29⟩, ⟨.minus, "-", 0, 31⟩,
    ⟨.constant, "1", 1, 33⟩, ⟨.semicolon, ";", 0, 34⟩, ⟨.returnWord, "return", 0, 36⟩,
    ⟨.identifier, "a", 0, 43⟩, ⟨.plus, "+", 0, 45⟩, ⟨.constant, "7", 7, 47⟩,
    ⟨.semicolon, ";", 0, 48⟩, ⟨.closeBrace, "\x7d", 0, 50⟩]

/-- The function that the tokens spell. -/
def function : Function :=
  ⟨"f", 1, [⟨"a", .int, 8, 0, 0, some 0⟩],
    [.whileLoop (.var 0) (.expr (.assign (.var 0) (.binary .subtract (.var 0) (.constant 1)))),
      .ret (.binary .add (.var 0) (.constant 7))]⟩

/-- A caller that passes one. -/
def caller : Machine :=
  ⟨fun r => if r = .rsp then 4096 else if r = .rdi then 1 else 0, none, fun _ => 0, [], []⟩

/-- The store when the parameter holds its argument. -/
def entered : Store :=
  ⟨function.passed 4088 [1] caller.memory, [], []⟩

/-- The store after the loop. -/
def counted : Store :=
  { entered with memory := entered.memory.writeWord 4080 0 }

/-- The loop runs once. -/
theorem runs : function.Runs 4088 [1] caller.store (some 7) counted := by
  have enters : test? function 4088 none entered (some (.var 0)) = some (true, some 1, entered) :=
    rfl
  have counts : Expr.eval function 4088
      (.assign (.var 0) (.binary .subtract (.var 0) (.constant 1))) entered
      = some (0, counted) := rfl
  have stops : test? function 4088 (some 0) counted (some (.var 0))
      = some (false, some 0, counted) := rfl
  have adds : Expr.eval function 4088 (.binary .add (.var 0) (.constant 7)) counted
      = some (7, counted) := rfl
  exact ⟨.returned 7, .cons (.whileLoop (.again enters (.expr counts) rfl (.stop stops)))
    (.cut (.ret adds)), rfl⟩

end Countdown

/-- The loop of `Countdown` returns seven. -/
theorem function_keepsMeaning_countdown
    : Program.ofTokens Countdown.tokens = .ok ⟨[Countdown.function]⟩
      ∧ ∃ n m', (Emit.function Countdown.function ⟨1, 0⟩).lines.line? (.symbol "f") = some n
          ∧ Config.Reaches (Countdown.function.exposed 4088)
              (Emit.function Countdown.function ⟨1, 0⟩).lines
              ⟨.line n, Countdown.caller⟩ ⟨.returned Countdown.caller.top, m'⟩
          ∧ m'.registers .rax = 7 ∧ m'.registers .rsp = 4104 := by
  have read : Program.ofTokens Countdown.tokens = .ok ⟨[Countdown.function]⟩ := by
    with_unfolding_all rfl
  obtain ⟨n, m', found, reaches, result, rsp, -⟩ := function_keepsMeaning Countdown.tokens
    ⟨[Countdown.function]⟩ Countdown.function read (List.mem_singleton.mpr rfl) ⟨1, 0⟩
    (by with_unfolding_all rfl) Countdown.caller [1] rfl (by decide) (by decide) (by decide)
    (some 7) Countdown.counted Countdown.runs
  exact ⟨read, n, m', found, reaches, result 7 rfl, rsp⟩

end SlotC
