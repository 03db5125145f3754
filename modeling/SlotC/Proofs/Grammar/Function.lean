import SlotC.Proofs.Grammar.Reading

/-! What is read as a function, and what that says of the frame of the function: its
parameters are the first of its variables, in the order of the arguments, and every variable
lies between the base of the frame and its last byte.
-/

namespace SlotC

/-- The variables of the function have places that code can be generated for. -/
structure Function.LaidOut (f : Function) : Prop where
  few : f.paramCount ≤ Frame.maxParams
  params : f.params <+: f.locals
  indices : f.params.map Variable.argIndex = (List.range f.paramCount).map some
  locals : ∀ v ∈ f.locals, (slotSize * v.slots : Nat) ≤ v.offset ∧ v.offset ≤ Frame.maxSize

/-- Parameters have the indices of their arguments. -/
theorem Entry.argIndex_ofParams (params : List Param) (index : Nat)
    : (ofParams index params).map Entry.argIndex
      = (List.range' index params.length).map some := by
  induction params generalizing index with
  | nil => rfl
  | cons param params ih =>
      rw [ofParams, List.map_cons, ih, List.length_cons, List.range'_succ, List.map_cons]

/-- Variables declared in a body are no parameters. -/
theorem Entry.argIndex_ofTokens {ts : List Token} {es : List Entry} (h : ofTokens ts = .ok es)
    : ∀ e ∈ es, e.argIndex = none := by
  induction ts generalizing es with
  | nil =>
      cases h
      simp
  | cons t ts ih =>
      simp only [ofTokens] at h
      split at h
      · obtain ⟨d, -, rest⟩ := bind_eq_ok.mp h
        cases d with
        | none => exact ih rest
        | some d =>
            obtain ⟨more, found, same⟩ := bind_eq_ok.mp rest
            cases same
            exact List.forall_mem_cons.mpr ⟨rfl, ih found⟩
      · exact ih h

/-- A frame that was laid out for a body gives a function with its variables in place. -/
theorem Frame.laidOut_of_ofBody {name : Token} {params : List Param} {window : List Token}
    {frame : Frame} (h : ofBody name params window = .ok frame) (text : String)
    (body : List Stmt)
    : (⟨text, params.length, frame.locals, body⟩ : Function).LaidOut := by
  obtain ⟨few, es, found, takes, rfl⟩ := ofBody_eq_ok.mp h
  obtain ⟨vs, locals, indices, -⟩ := locals_addAll empty (Entry.ofParams 0 params ++ es)
  rw [List.map_append, Entry.argIndex_ofParams, ← List.range_eq_range'] at indices
  obtain ⟨ps, others, rfl, own, none⟩ := List.map_eq_append_iff.mp indices
  have isParam : ∀ v ∈ ps, v.argIndex.isSome := by
    intro v member
    have index : v.argIndex ∈ (List.range params.length).map some :=
      own ▸ List.mem_map_of_mem member
    obtain ⟨i, -, same⟩ := List.mem_map.mp index
    rw [← same]
    rfl
  have noParam : ∀ v ∈ others, ¬ v.argIndex.isSome := by
    intro v member
    have index : v.argIndex ∈ es.map Entry.argIndex := none ▸ List.mem_map_of_mem member
    obtain ⟨e, declared, same⟩ := List.mem_map.mp index
    rw [← same, Entry.argIndex_ofTokens found e declared]
    simp
  have all : (empty.addAll (Entry.ofParams 0 params ++ es)).locals = ps ++ others := locals
  have first : (⟨text, params.length, ps ++ others, body⟩ : Function).params = ps := by
    rw [Function.params, List.filter_append, List.filter_eq_self.mpr isParam,
      List.filter_eq_nil_iff.mpr noParam, List.append_nil]
  have laid : (empty.addAll (Entry.ofParams 0 params ++ es)).Laid :=
    laid_addAll (by simp [Laid, empty])
  rw [all]
  refine ⟨few, ?_, ?_, ?_⟩
  · rw [first]
    exact List.prefix_append _ _
  · rw [first]
    exact own
  · intro v member
    obtain ⟨low, high⟩ := laid v (all ▸ member)
    rw [size_addAll] at high
    exact ⟨low, Int.le_trans high (Int.ofNat_le.mpr takes.fits)⟩

namespace Grammar

variable {ts rest : List Token}

/-- A function is a head, parameters in parentheses, and a block that is read with the frame
of its own tokens.
-/
theorem reads_function {f : Function}
    : Reads (function ts) f rest
      ↔ ∃ head r₁ paren r₂ ps r₃ window frame body,
          Reads (typedName ts) head r₁ ∧ Reads (expect .openParen r₁) paren r₂
          ∧ Reads (params r₂) ps r₃ ∧ braceWindow r₃ = .ok window
          ∧ Frame.ofBody head.name ps window = .ok frame ∧ Reads (block frame r₃) body rest
          ∧ f = ⟨head.name.text, ps.length, frame.locals, body⟩ := by
  simp only [function, reads_bind]
  constructor
  · rintro ⟨head, r₁, first, paren, r₂, second, ps, r₃, third, checked⟩
    obtain ⟨window, found, checked⟩ := reads_bind_check.mp checked
    obtain ⟨frame, laid, last⟩ := reads_bind_check.mp checked
    obtain ⟨body, _, fourth, same⟩ := reads_bind.mp last
    obtain ⟨rfl, rfl⟩ := reads_pure.mp same
    exact ⟨head, r₁, paren, r₂, ps, r₃, window, frame, body, first, second, third, found,
      mapError_eq_ok.mp laid, fourth, rfl⟩
  · rintro ⟨head, r₁, paren, r₂, ps, r₃, window, frame, body, first, second, third, found, laid,
      fourth, rfl⟩
    refine ⟨head, r₁, first, paren, r₂, second, ps, r₃, third, ?_⟩
    refine reads_bind_check.mpr ⟨window, found, ?_⟩
    refine reads_bind_check.mpr ⟨frame, mapError_eq_ok.mpr laid, ?_⟩
    exact reads_bind.mpr ⟨body, rest, fourth, reads_pure.mpr ⟨rfl, rfl⟩⟩

/-- Functions are read until no token is left. -/
theorem functions_eq_ok {fs : List Function}
    : functions ts = .ok fs
      ↔ (ts = [] ∧ fs = [])
        ∨ ∃ f r more, Reads (function ts) f r ∧ functions r = .ok more ∧ fs = f :: more := by
  cases ts with
  | nil =>
      rw [functions]
      constructor
      · intro same
        cases same
        exact .inl ⟨rfl, rfl⟩
      · rintro (⟨-, rfl⟩ | ⟨_, _, _, read, -⟩)
        · rfl
        · exact absurd read.fewer (Nat.not_lt_zero _)
  | cons t ts =>
      rw [functions, bind_eq_ok]
      constructor
      · rintro ⟨p, read, rest⟩
        obtain ⟨more, found, same⟩ := bind_eq_ok.mp rest
        cases same
        exact .inr ⟨p.value, p.rest, more, ⟨p.fewer, read⟩, found, rfl⟩
      · rintro (⟨empty, -⟩ | ⟨f, r, more, ⟨fewer, read⟩, found, rfl⟩)
        · cases empty
        · exact ⟨_, read, bind_eq_ok.mpr ⟨more, found, rfl⟩⟩

/-- What holds of every function that is read holds of all functions of a program. -/
theorem forall_of_functions {P : Function → Prop}
    (one : ∀ {ts rest f}, Reads (function ts) f rest → P f) {fs : List Function}
    (read : functions ts = .ok fs)
    : ∀ f ∈ fs, P f := by
  induction length : ts.length using Nat.strongRecOn generalizing ts fs with
  | ind n ih =>
      rcases functions_eq_ok.mp read with ⟨-, rfl⟩ | ⟨f, r, more, first, rest, rfl⟩
      · simp
      · exact List.forall_mem_cons.mpr ⟨one first, ih r.length (length ▸ first.fewer) rest rfl⟩

end Grammar

namespace Program

variable {ts : List Token} {program : Program}

theorem ofTokens_eq_ok
    : Program.ofTokens ts = .ok program ↔ Grammar.functions ts = .ok program.functions := by
  unfold Program.ofTokens
  cases Grammar.functions ts with
  | error failure => simp
  | ok fs => exact ⟨fun same => by cases same; rfl, fun same => by cases same; rfl⟩

/-- Every function of a program that was read has its variables in place. -/
theorem laidOut_of_ofTokens (read : Program.ofTokens ts = .ok program)
    : ∀ f ∈ program.functions, f.LaidOut := by
  refine Grammar.forall_of_functions ?_ (ofTokens_eq_ok.mp read)
  intro ts rest f one
  obtain ⟨_, _, _, _, _, _, _, _, _, -, -, -, -, laid, -, rfl⟩ := Grammar.reads_function.mp one
  exact Frame.laidOut_of_ofBody laid _ _

end Program

end SlotC
