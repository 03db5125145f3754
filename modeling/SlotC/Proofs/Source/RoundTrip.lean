import Mathlib.Algebra.Order.BigOperators.Group.List
import Mathlib.Algebra.Order.Group.Nat
import SlotC.Proofs.Source.Names
import SlotC.Proofs.Source.Spelling

/-! Reading what is printed. The tokens of the source text of a program spell its functions, and
in the frame of their variables the phrases stand for the statements that were printed. So the
programs that are read from source texts are those that are well formed, and each of them is
read from its own source text.
-/

namespace SlotC

open Lexeme (fixed grouped operand commas)

-----------------------------------------------------------------------------------------
-- Frames
-----------------------------------------------------------------------------------------

/-- The frame of the variables of a function. -/
def Function.layout (f : Function) : Frame :=
  ⟨f.locals, 8 * (f.locals.map Variable.slots).sum⟩

/-- Everything about a variable but its place. -/
def Variable.shape (v : Variable) : String × Scalar × Nat × Nat :=
  (v.name, v.scalar, v.pointers, v.arrayLength)

/-- Variables that are written in the same way have the same shape. -/
theorem Variable.shape_eq {vs ws : List Variable} {ds : List (Param × Option Token)}
    (first : List.Forall₂ Follows vs ds) (second : List.Forall₂ Follows ws ds)
    : vs.map shape = ws.map shape := by
  induction first generalizing ws with
  | nil =>
      cases second
      rfl
  | @cons v d vs ds own _ ih =>
      cases second with
      | @cons w _ ws _ own' others =>
          have same : v.shape = w.shape := by
            have length : v.arrayLength = w.arrayLength :=
              Int.ofNat_inj.mp (own.arrayLength.trans own'.arrayLength.symm)
            simp only [shape, own.name, own.scalar, own.pointers, length, own'.name, own'.scalar,
              own'.pointers]
          rw [List.map_cons, List.map_cons, same, ih others]

theorem Variable.slots_of_shape {vs ws : List Variable} (same : vs.map shape = ws.map shape)
    : vs.map slots = ws.map slots := by
  have slots : Variable.slots = (fun s => max 1 s.2.2.2) ∘ shape := rfl
  rw [slots, ← List.map_map, ← List.map_map, same]

/-- The places of variables follow from their shapes. -/
theorem Variable.eq_of_shape {vs ws : List Variable} (same : vs.map shape = ws.map shape)
    (offset : Nat → Int) (argIndex : Nat → Option Nat)
    (first : ∀ (i : Nat) (v : Variable), vs[i]? = some v →
      v.offset = offset i ∧ v.argIndex = argIndex i)
    (second : ∀ (i : Nat) (v : Variable), ws[i]? = some v →
      v.offset = offset i ∧ v.argIndex = argIndex i)
    : vs = ws := by
  refine List.ext_getElem? fun i => ?_
  have shapes : (vs[i]?).map shape = (ws[i]?).map shape := by
    rw [← List.getElem?_map, ← List.getElem?_map, same]
  cases found : vs[i]? with
  | none =>
      rw [found] at shapes
      exact (Option.map_eq_none_iff.mp shapes.symm).symm
  | some v =>
      rw [found, Option.map_some, eq_comm, Option.map_eq_some_iff] at shapes
      obtain ⟨w, found', same⟩ := shapes
      obtain ⟨offset₁, argIndex₁⟩ := first i v found
      obtain ⟨offset₂, argIndex₂⟩ := second i w found'
      simp only [shape, Prod.mk.injEq] at same
      obtain ⟨name, scalar, pointers, arrayLength⟩ := same
      rw [found']
      cases v
      cases w
      simp_all

section

variable {f : Function}

/-- The name of a variable is found at its index. -/
theorem Function.Regular.lookup?_eq (regular : f.Regular) {id : Nat} {v : Variable}
    (found : f.locals[id]? = some v)
    : f.layout.lookup? v.name = some id := by
  have distinct : f.layout.names.Nodup := regular.distinct
  exact (Frame.lookup?_eq_some distinct).mpr ⟨v, found, rfl⟩

theorem Function.Regular.lookup?_nameOf (regular : f.Regular) {id : Nat}
    (inside : id < f.locals.length)
    : f.layout.lookup? (nameOf f.locals id) = some id := by
  have found : f.locals[id]? = some (f.locals[id]) := List.getElem?_eq_getElem inside
  rw [nameOf, found]
  exact regular.lookup?_eq found

/-- No array is as long as a signed 64-bit number can be. -/
theorem Function.Regular.arrayLength_lt (regular : f.Regular) {v : Variable}
    (member : v ∈ f.locals)
    : v.arrayLength < 2 ^ 63 := by
  have part : v.slots ≤ (f.locals.map Variable.slots).sum :=
    List.le_sum_of_mem (List.mem_map_of_mem member)
  have own : v.arrayLength ≤ v.slots := Nat.le_max_right 1 _
  have fits := regular.fits
  rw [Frame.maxSize] at fits
  omega

/-- The body declares variables that can be declared. -/
theorem Function.Regular.canDeclare (regular : f.Regular)
    : ∀ id ∈ Stmt.declaredIn f.body, ∃ v, f.layout.CanDeclare id v := by
  intro id member
  rw [regular.declared, List.mem_range'_1] at member
  have inside : id < f.locals.length := by omega
  have found : f.locals[id]? = some (f.locals[id]) := List.getElem?_eq_getElem inside
  have own : f.locals[id] ∈ f.locals := List.getElem_mem inside
  exact ⟨f.locals[id], found, regular.lookup?_eq found, regular.arrayLength_lt own,
    regular.arrays _ own⟩

/-- A frame for what is written of a regular function is its frame. -/
theorem Function.Regular.addAll_eq (regular : f.Regular) {d : Definition}
    (count : f.paramCount = d.params.length) (sound : ∀ e ∈ d.entries, e.Sound)
    (follow : List.Forall₂ Variable.Follows f.locals
      (d.params.map (fun param => (param, none)) ++ d.declarations))
    : Frame.empty.addAll d.entries = f.layout := by
  have packed : (Frame.empty.addAll d.entries).Packed := Frame.packed_empty.addAll
  have same := Variable.shape_eq (d.follow_locals sound) follow
  have slots := Variable.slots_of_shape same
  have locals : (Frame.empty.addAll d.entries).locals = f.locals := by
    refine Variable.eq_of_shape same (fun i => 8 * ((f.locals.map Variable.slots).take (i + 1)).sum)
      (fun i => if i < f.paramCount then some i else none) ?_ ?_
    · intro i v found
      have none : ∀ e ∈ d.declarations.map fun d => Entry.ofDeclaration d.1 d.2,
          e.argIndex = none := by
        intro e member
        obtain ⟨d', -, rfl⟩ := List.mem_map.mp member
        rfl
      have arguments := (Frame.argIndex_addAll d.params none).2
      rw [← d.entries_eq] at arguments
      refine ⟨?_, count ▸ arguments i v found⟩
      rw [packed.offsets i v found, List.map_take, slots]
    · intro i v found
      refine ⟨?_, regular.arguments i v found⟩
      rw [regular.offsets i v found, List.map_take]
  rw [Function.layout, ← locals, ← packed.size]

/-- Variables that are declared in order follow their declarations. -/
theorem Variable.follow_of_declaredBy {locals : List Variable} {n k : Nat}
    {ds : List (Param × Option Token)} (count : locals.length - n = k)
    (declared : List.Forall₂ (DeclaredBy locals) (List.range' n k) ds)
    : List.Forall₂ Follows (locals.drop n) ds := by
  induction k generalizing n ds with
  | zero =>
      cases declared
      rw [List.drop_eq_nil_of_le (by omega)]
      exact .nil
  | succ k ih =>
      rw [List.range'_succ] at declared
      cases declared with
      | cons own others =>
          obtain ⟨v, found, follows, -⟩ := own
          obtain ⟨inside, rfl⟩ := List.getElem?_eq_some_iff.mp found
          rw [List.drop_eq_getElem_cons inside]
          exact .cons follows (ih (by omega) others)

/-- A regular function is what is written if it has the name, the variables and the body. -/
theorem Function.Regular.elaborates (regular : f.Regular) {d : Definition}
    (name : f.name = d.head.name.text)
    (given : List.Forall₂ Variable.Follows (f.locals.take f.paramCount)
      (d.params.map fun param => (param, none)))
    (declared : List.Forall₂ (DeclaredBy f.locals) (Stmt.declaredIn f.body) d.declarations)
    (body : Phrase.stmts? f.layout d.body = some f.body)
    : d.Elaborates f := by
  have count : f.paramCount = d.params.length := by
    simpa [regular.enough] using given.length_eq
  have written : List.Forall₂ Variable.Follows (f.locals.drop f.paramCount) d.declarations :=
    Variable.follow_of_declaredBy rfl (regular.declared ▸ declared)
  have sound : ∀ e ∈ d.entries, e.Sound := by
    rw [d.entries_eq, List.forall_mem_append]
    refine ⟨Entry.sound_ofParams 0 d.params, ?_⟩
    intro e member
    obtain ⟨d', inside, rfl⟩ := List.mem_map.mp member
    have flipped := List.Forall₂.flip (R := flip (DeclaredBy f.locals)) declared
    obtain ⟨id, -, v, -, -, own⟩ := exists_of_forall₂ flipped d' inside
    exact own
  have frame : Frame.empty.addAll d.entries = f.layout := by
    refine regular.addAll_eq count sound ?_
    rw [← f.locals.take_append_drop f.paramCount]
    exact List.rel_append given written
  have takes : Frame.empty.Takes d.entries := by
    refine ⟨?_, ?_⟩
    · rw [← Frame.names_addAll, frame]
      exact regular.distinct
    · rw [← Frame.size_addAll, frame]
      exact regular.fits
  exact ⟨count ▸ regular.few, sound, takes, name, count, by rw [frame]; rfl, frame ▸ body⟩

-----------------------------------------------------------------------------------------
-- Functions
-----------------------------------------------------------------------------------------

theorem Variable.follows_of_head {v : Variable} {param : Param} (plain : v.arrayLength = 0)
    (name : param.name.text = v.name) (scalar : param.scalar = v.scalar)
    (pointers : param.pointers = v.stars)
    : v.Follows (param, none) := by
  refine ⟨name.symm, scalar.symm, ?_, by simp [plain]⟩
  simp [pointers, stars, isArray, plain]

/-- What is printed of parameters spells them. -/
theorem Param.allSpelled_of_prints {vs : List Variable} {ts : List Token} (filled : vs ≠ [])
    (plain : ∀ v ∈ vs, v.arrayLength = 0) (printed : Prints ts (commas (vs.map Variable.head)))
    : ∃ params, Param.AllSpelled ts params
        ∧ List.Forall₂ Variable.Follows vs (params.map fun param => (param, none)) := by
  induction vs generalizing ts with
  | nil => exact absurd rfl filled
  | cons v vs ih =>
      obtain ⟨own, plain⟩ := List.forall_mem_cons.mp plain
      cases vs with
      | nil =>
          rw [List.map_singleton, Lexeme.commas_singleton] at printed
          obtain ⟨param, spelled, name, scalar, pointers⟩ := Variable.spelled_head printed
          exact ⟨[param], .last spelled,
            .cons (Variable.follows_of_head own name scalar pointers) .nil⟩
      | cons v' vs =>
          rw [List.map_cons, List.map_cons, Lexeme.commas_cons_cons, ← List.map_cons] at printed
          obtain ⟨l, r, rfl, printed₁, rest⟩ := prints_append.mp printed
          obtain ⟨t, r, rfl, between, printed₂⟩ := prints_fixed rest
          obtain ⟨param, spelled, name, scalar, pointers⟩ := Variable.spelled_head printed₁
          obtain ⟨params, others, follow⟩ := ih (by simp) plain printed₂
          exact ⟨param :: params, .more spelled between others,
            .cons (Variable.follows_of_head own name scalar pointers) follow⟩

theorem Param.listSpelled_of_prints {vs : List Variable} {ts : List Token}
    (plain : ∀ v ∈ vs, v.arrayLength = 0) (printed : Prints ts (commas (vs.map Variable.head)))
    : ∃ params, Param.ListSpelled ts params
        ∧ List.Forall₂ Variable.Follows vs (params.map fun param => (param, none)) := by
  by_cases none : vs = []
  · subst none
    obtain rfl := prints_nil.mp printed
    exact ⟨[], .none, .nil⟩
  · obtain ⟨params, spelled, follow⟩ := Param.allSpelled_of_prints none plain printed
    exact ⟨params, .some spelled, follow⟩

/-- What is printed of a regular function spells it. -/
theorem Function.Regular.spelled (regular : f.Regular) {ts : List Token}
    (printed : Prints ts f.lexemes)
    : ∃ d, Definition.Spelled ts d ∧ Phrase.AllNearest d.body ∧ d.Elaborates f := by
  obtain ⟨t, r, rfl, own, rest⟩ := prints_fixed printed
  obtain ⟨name, r, rfl, named, text, rest⟩ := prints_name rest
  obtain ⟨left, r, rfl, opening, rest⟩ := prints_fixed rest
  obtain ⟨ps, r, rfl, printed₁, rest⟩ := prints_append.mp rest
  obtain ⟨right, r, rfl, closing, rest⟩ := prints_fixed rest
  obtain ⟨first, r, rfl, begins, rest⟩ := prints_fixed rest
  obtain ⟨b, r, rfl, printed₂, rest⟩ := prints_append.mp rest
  obtain ⟨last, rfl, ends⟩ := prints_last rest
  obtain ⟨params, given, follow₁⟩ := Param.listSpelled_of_prints regular.params printed₁
  have known : ∀ id ∈ Stmt.idsOf f.body, f.layout.lookup? (nameOf f.layout.locals id) = some id :=
    fun id member => regular.lookup?_nameOf (regular.known id member)
  obtain ⟨phrases, inner, value, declared⟩ :=
    Stmt.allSpelled f.body known regular.canDeclare printed₂
  have head := @Param.Spelled.mk t name .int [] own (by simp) named
  refine ⟨⟨⟨.int, 0, name⟩, params, phrases⟩,
    .mk head opening given closing begins inner ends, ?_, ?_⟩
  · have distinct : f.layout.names.Nodup := regular.distinct
    exact (Phrase.allDenote_of_stmts? distinct phrases value).nearest_iff.mpr regular.nearest
  · exact regular.elaborates text.symm follow₁ declared value

end

-----------------------------------------------------------------------------------------
-- Programs
-----------------------------------------------------------------------------------------

/-- What is printed of regular functions spells them. -/
theorem Function.allSpelled {fs : List Function} {ts : List Token}
    (regular : ∀ f ∈ fs, f.Regular) (printed : Prints ts (fs.flatMap Function.lexemes))
    : ∃ ds, Definition.AllSpelled ts ds ∧ (∀ d ∈ ds, Phrase.AllNearest d.body)
        ∧ List.Forall₂ Definition.Elaborates ds fs := by
  induction fs generalizing ts with
  | nil =>
      obtain rfl := prints_nil.mp printed
      exact ⟨[], .nil, by simp, .nil⟩
  | cons f fs ih =>
      obtain ⟨own, regular⟩ := List.forall_mem_cons.mp regular
      rw [List.flatMap_cons] at printed
      obtain ⟨l, r, rfl, printed₁, printed₂⟩ := prints_append.mp printed
      obtain ⟨d, spelled, near, elaborates⟩ := own.spelled printed₁
      obtain ⟨ds, others, nears, elaborate⟩ := ih regular printed₂
      exact ⟨d :: ds, .cons spelled others, List.forall_mem_cons.mpr ⟨near, nears⟩,
        .cons elaborates elaborate⟩

/-- Tokens of what is printed of regular functions are read as the functions. -/
theorem Program.ofTokens_of_prints {program : Program} {ts : List Token}
    (regular : ∀ f ∈ program.functions, f.Regular) (printed : Prints ts program.lexemes)
    : Program.ofTokens ts = .ok program := by
  obtain ⟨ds, spelled, near, elaborate⟩ := Function.allSpelled regular printed
  rw [Program.ofTokens, Grammar.functions_of_elaborate spelled near elaborate]

/-- What is printed of a well-formed program is read as the program. -/
theorem Program.ofSource_source {program : Program} (formed : program.WellFormed)
    : Program.ofSource program.source = .ok program := by
  obtain ⟨ts, scanned, printed⟩ := Lexeme.scan_source (Program.allLexical formed)
  have read := Program.ofTokens_of_prints (fun f member => (formed f member).toRegular) printed
  rw [Program.ofSource, Program.source, scanned]
  exact mapError_eq_ok.mpr read

/-- A well-formed program is read from its own source text. Whatever source text a program is
read from, it is well formed, and even from tokens that no source text has only regular functions
are read.
-/
theorem ofSource_roundTrip (program : Program)
    : (program.WellFormed → Program.ofSource program.source = .ok program)
      ∧ (∀ source, Program.ofSource source = .ok program → program.WellFormed)
      ∧ ∀ ts, Program.ofTokens ts = .ok program → ∀ f ∈ program.functions, f.Regular :=
  ⟨Program.ofSource_source, fun _ => Program.wellFormed_of_ofSource,
    fun _ => Program.regular_of_ofTokens⟩

namespace Grouped

/-- A function with operands that need parentheses, a number that has a sign, and a conditional
statement that has to be in a block because an `else` follows.
-/
def function : Function :=
  ⟨"f", 2, [⟨"p", .int, 8, 1, 0, some 0⟩, ⟨"n_1", .int, 16, 0, 0, some 1⟩,
      ⟨"a", .int, 40, 1, 3, none⟩],
    [.declare 2,
      .branch (.binary .less (.var 1) (.constant (-1)))
        (.block [.branch (.var 1) (.ret (.var 2)) none])
        (some (.expr (.assign (.deref (.binary .add (.var 0) (.constant 1)))
          (.binary .subtract (.var 1) (.binary .subtract (.var 1) (.constant 2)))))),
      .ret (.call "f" [.var 2, .binary .multiply (.assign (.var 1) (.constant 3)) (.constant 2)])]⟩

/-- The source text of the function. -/
def source : String :=
  "int f ( int * p , int n_1 ) \x7b int a [ 3 ] ; "
    ++ "if ( n_1 < 18446744073709551615 ) \x7b if ( n_1 ) return a ; \x7d "
    ++ "else * ( p + 1 ) = n_1 - ( n_1 - 2 ) ; "
    ++ "return f ( a , ( n_1 = 3 ) * 2 ) ; \x7d"

theorem regular : function.Regular where
  few := by decide
  enough := by decide
  distinct := by decide
  arguments := by
    rintro (_ | _ | _ | _) v found <;> cases found <;> rfl
  offsets := by
    rintro (_ | _ | _ | _) v found <;> cases found <;> rfl
  fits := by decide
  params := by decide
  arrays := by decide
  known := by decide
  declared := by decide
  nearest := by simp [function, Stmt.AllNearest, Stmt.Nearest, Stmt.endsOpen]

theorem formed : Program.WellFormed ⟨[function]⟩ := by
  have f : IsName "f" := ⟨⟨'f', [], rfl, rfl, List.all_eq_true.mp rfl⟩, by decide⟩
  have p : IsName "p" := ⟨⟨'p', [], rfl, rfl, List.all_eq_true.mp rfl⟩, by decide⟩
  have n : IsName "n_1" := ⟨⟨'n', ['_', '1'], rfl, rfl, List.all_eq_true.mp rfl⟩, by decide⟩
  have a : IsName "a" := ⟨⟨'a', [], rfl, rfl, List.all_eq_true.mp rfl⟩, by decide⟩
  refine List.forall_mem_singleton.mpr ⟨regular, f, ?_, List.forall_mem_singleton.mpr f⟩
  simp [function, p, n, a]

end Grouped

/-- Parentheses are printed where they are needed, and what is printed is read. -/
theorem ofSource_roundTrip_grouped
    : Program.source ⟨[Grouped.function]⟩ = Grouped.source
      ∧ Program.ofSource Grouped.source = .ok ⟨[Grouped.function]⟩
      ∧ Program.WellFormed ⟨[Grouped.function]⟩
      ∧ Grouped.function.Regular := by
  have printed : Program.source ⟨[Grouped.function]⟩ = Grouped.source := by decide +kernel
  obtain ⟨roundTrip, formed, regular⟩ := ofSource_roundTrip ⟨[Grouped.function]⟩
  have read := printed ▸ roundTrip Grouped.formed
  obtain ⟨ts, -, tokens⟩ := bind_eq_ok.mp read
  exact ⟨printed, read, formed _ read,
    regular ts (mapError_eq_ok.mp tokens) _ (List.mem_singleton_self _)⟩

end SlotC
