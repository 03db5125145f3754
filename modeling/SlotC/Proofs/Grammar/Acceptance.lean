import SlotC.Proofs.Grammar.Names
import SlotC.Proofs.Grammar.Scan
import SlotC.Proofs.Grammar.Function

/-! Which tokens are a program. A function is read if the grammar spells it, its variables fit
into a frame and all its names are those of variables. Two passes decide this: a scan of the
tokens between the braces lays out the frame, and the statements are then read with it. Both
see the same declarations, since the scan follows the derivation of the body.
-/

namespace SlotC

-----------------------------------------------------------------------------------------
-- Parameters
-----------------------------------------------------------------------------------------

/-- Parameters start with a type. -/
theorem Param.AllSpelled.head {l : List Token} {ps : List Param} (spelled : Param.AllSpelled l ps)
    : ∃ t r scalar, l = t :: r ∧ t.kind = .type scalar := by
  cases spelled with
  | last own | more own =>
      obtain ⟨type, -, -⟩ := own
      exact ⟨_, _, _, rfl, type⟩

namespace Grammar

variable {ts rest : List Token}

theorem reads_paramList {ps : List Param}
    : Reads (paramList ts) ps rest
      ↔ ∃ param more r, Reads (typedName ts) param r ∧ Reads (paramTail r) more rest
          ∧ ps = param :: more := by
  rw [paramList]
  simp only [reads_bind, reads_pure, exists_prop]
  constructor
  · rintro ⟨param, r, first, more, _, second, rfl, rfl⟩
    exact ⟨param, more, r, first, second, rfl⟩
  · rintro ⟨param, more, r, first, second, rfl⟩
    exact ⟨param, r, first, more, rest, second, rfl, rfl⟩

/-- After a parameter there is another one or the parenthesis. -/
theorem reads_paramTail {t : Token} {ps : List Param}
    : Reads (paramTail (t :: ts)) ps rest
      ↔ (t.kind = .comma ∧ Reads (paramList ts) ps rest)
        ∨ (t.kind = .closeParen ∧ ps = [] ∧ rest = ts) := by
  rw [paramTail]
  exact reads_listTail

theorem not_reads_paramTail {ps : List Param} : ¬ Reads (paramTail []) ps rest := by
  rw [paramTail]
  exact not_reads_error

/-- Parameters that are read are spelled by the tokens that are read. -/
theorem paramList_spelled (ts : List Token) {rest : List Token} {ps : List Param}
    (read : Reads (paramList ts) ps rest)
    : ∃ l last, ts = l ++ last :: rest ∧ Param.AllSpelled l ps ∧ last.kind = .closeParen := by
  obtain ⟨param, more, r, first, second, rfl⟩ := reads_paramList.mp read
  obtain ⟨t, r', rfl⟩ : ∃ t r', r = t :: r' := by
    cases r with
    | nil => exact absurd second not_reads_paramTail
    | cons t r' => exact ⟨t, r', rfl⟩
  have fewer := first.fewer
  obtain ⟨l, same, spelled⟩ := reads_param.mp first
  rcases reads_paramTail.mp second with ⟨comma, others⟩ | ⟨closing, rfl, rfl⟩
  · obtain ⟨l', last, rfl, spelled', closing⟩ := paramList_spelled r' others
    exact ⟨l ++ t :: l', last, by simp [same], .more spelled comma spelled', closing⟩
  · exact ⟨l, t, same, .last spelled, closing⟩
termination_by ts.length
decreasing_by
  simp only [List.length_cons] at fewer
  omega

/-- Parameters that are spelled are read, up to the parenthesis after them. -/
theorem reads_paramList_of_spelled {l : List Token} {ps : List Param} {last : Token}
    (spelled : Param.AllSpelled l ps) (closing : last.kind = .closeParen)
    : Reads (paramList (l ++ last :: rest)) ps rest := by
  induction spelled with
  | last own =>
      refine reads_paramList.mpr ⟨_, [], last :: rest, reads_param.mpr ⟨_, rfl, own⟩, ?_, rfl⟩
      exact reads_paramTail.mpr (.inr ⟨closing, rfl, rfl⟩)
  | @more l r param params t own between others ih =>
      rw [List.append_assoc]
      refine reads_paramList.mpr ⟨param, params, _, reads_param.mpr ⟨l, rfl, own⟩, ?_, rfl⟩
      exact reads_paramTail.mpr (.inl ⟨between, ih⟩)

/-- Parameters are read as they are spelled, with the parenthesis after them. -/
theorem reads_params {ps : List Param}
    : Reads (params ts) ps rest
      ↔ ∃ l last, ts = l ++ last :: rest ∧ Param.ListSpelled l ps ∧ last.kind = .closeParen := by
  cases ts with
  | nil => simp [params]
  | cons t ts =>
      rw [params]
      split
      · next own =>
          rw [reads_ok]
          constructor
          · rintro ⟨rfl, rfl⟩
            exact ⟨[], t, rfl, .none, own⟩
          · rintro ⟨l, last, same, spelled, closing⟩
            cases spelled with
            | none =>
                cases same
                exact ⟨rfl, rfl⟩
            | some all =>
                -- The first token is the parenthesis and cannot be a type as well.
                obtain ⟨t', r, scalar, rfl, type⟩ := all.head
                cases same
                rw [own] at type
                cases type
      · next other =>
          constructor
          · intro read
            obtain ⟨l, last, same, spelled, closing⟩ := paramList_spelled (t :: ts) read
            exact ⟨l, last, same, .some spelled, closing⟩
          · rintro ⟨l, last, same, spelled, closing⟩
            cases spelled with
            | none =>
                cases same
                exact absurd closing other
            | some all =>
                rw [same]
                exact reads_paramList_of_spelled all closing

end Grammar

-----------------------------------------------------------------------------------------
-- Frames
-----------------------------------------------------------------------------------------

/-- The tokens of a block are found by its braces. -/
theorem Grammar.braceWindow_spelled {b rest : List Token} {body : List Phrase} {first last : Token}
    (begins : first.kind = .openBrace) (inner : Phrase.AllSpelled b body)
    (ends : last.kind = .closeBrace)
    : braceWindow (first :: (b ++ last :: rest)) = .ok (first :: (b ++ [last])) := by
  have closed : untilClosed 0 (b ++ last :: rest) = some (b ++ [last]) := by
    rw [inner.scanned.balanced, untilClosed_last ends]
    rfl
  simp [braceWindow, begins, closed]

/-- Parameters are no arrays. -/
theorem Entry.sound_ofParams (index : Nat) (params : List Param)
    : ∀ e ∈ ofParams index params, e.Sound := by
  induction params generalizing index with
  | nil => simp [ofParams]
  | cons param params ih =>
      refine List.forall_mem_cons.mpr ⟨?_, ih (index + 1)⟩
      simp [Sound]

namespace Definition

variable {d : Definition}

/-- A frame takes variables with different names that fit into its bytes. -/
theorem takes_entries
    : Frame.empty.Takes d.entries
      ↔ (d.entries.map Entry.name).Nodup
        ∧ 8 * (d.entries.map fun e => e.declarator.slots).sum ≤ Frame.maxSize := by
  rw [← Entry.sum_bytes, Int.ofNat_le]
  constructor
  · intro takes
    exact ⟨takes.names, by simpa [Frame.empty] using takes.fits⟩
  · rintro ⟨distinct, fits⟩
    exact ⟨distinct, by simpa [Frame.empty] using fits⟩

/-- A well-formed function is one whose variables fit into a frame and whose statements fit
the variables.
-/
theorem wellFormed_iff
    : d.WellFormed
      ↔ d.params.length ≤ Frame.maxParams ∧ (∀ e ∈ d.entries, e.Sound)
        ∧ Frame.empty.Takes d.entries
        ∧ ∀ leaf ∈ Phrase.leavesOf d.body, leaf.Fits (d.entries.map Entry.name) := by
  rw [takes_entries]
  constructor
  · intro formed
    refine ⟨formed.few, formed.lengths, ⟨formed.distinct, formed.fits⟩, ?_⟩
    intro leaf member
    cases leaf with
    | term e =>
        intro s inside
        have own : s ∈ d.terms := List.mem_flatMap.mpr ⟨_, member, inside⟩
        refine Term.fits_iff.mpr ⟨formed.known s own, ?_⟩
        intro operand same
        exact formed.sized operand (same ▸ own)
    | declared param length =>
        have own : Entry.ofDeclaration param length ∈ d.entries :=
          List.mem_append_right _ (List.mem_filterMap.mpr ⟨_, member, rfl⟩)
        exact List.mem_map_of_mem own
  · rintro ⟨few, sound, ⟨distinct, fits⟩, leaves⟩
    have fit : ∀ e ∈ d.terms, e.Fits (d.entries.map Entry.name) := by
      intro e own
      obtain ⟨leaf, member, inside⟩ := List.mem_flatMap.mp own
      cases leaf with
      | term e' => exact leaves _ member e inside
      | declared param length => cases inside
    refine ⟨few, distinct, sound, fits, ?_, ?_⟩
    · intro e own
      exact (Term.fits_iff.mp (fit e own)).1
    · intro operand own
      exact (Term.fits_iff.mp (fit _ own)).2 operand rfl

/-- The frame of a function holds the variables that it declares. -/
theorem ofBody_spelled {b : List Token} {name first last : Token} {frame : Frame}
    (begins : first.kind = .openBrace) (inner : Phrase.AllSpelled b d.body)
    (ends : last.kind = .closeBrace)
    : Frame.ofBody name d.params (first :: (b ++ [last])) = .ok frame
      ↔ d.params.length ≤ Frame.maxParams ∧ (∀ e ∈ d.entries, e.Sound)
        ∧ Frame.empty.Takes d.entries ∧ frame = Frame.empty.addAll d.entries := by
  have found (es : List Entry) := (inner.scanned.braces begins ends).entries [] es
  rw [List.append_nil] at found
  rw [Frame.ofBody_eq_ok]
  simp only [found, entries, List.forall_mem_append]
  constructor
  · rintro ⟨few, _, ⟨sound, more, none, rfl⟩, takes, rfl⟩
    cases none
    rw [List.append_nil] at takes ⊢
    exact ⟨few, ⟨Entry.sound_ofParams 0 d.params, sound⟩, takes, rfl⟩
  · rintro ⟨few, ⟨-, sound⟩, takes, rfl⟩
    exact ⟨few, _, ⟨sound, [], rfl, (List.append_nil _).symm⟩, takes, rfl⟩

end Definition

-----------------------------------------------------------------------------------------
-- Functions and programs
-----------------------------------------------------------------------------------------

/-- The function is what is written: its variables are laid out as they are declared, and its
body is what the phrases stand for in their frame.
-/
structure Definition.Elaborates (d : Definition) (f : Function) : Prop where
  few : d.params.length ≤ Frame.maxParams
  sound : ∀ e ∈ d.entries, e.Sound
  takes : Frame.empty.Takes d.entries
  name : f.name = d.head.name.text
  paramCount : f.paramCount = d.params.length
  locals : f.locals = (Frame.empty.addAll d.entries).locals
  body : Phrase.stmts? (Frame.empty.addAll d.entries) d.body = some f.body

/-- A function that is written stands for one exactly if it is well formed. -/
theorem Definition.elaborates_exists {d : Definition}
    : (∃ f, d.Elaborates f) ↔ d.WellFormed := by
  rw [wellFormed_iff, ← Frame.names_addAll]
  constructor
  · rintro ⟨f, few, sound, takes, -, -, -, body⟩
    exact ⟨few, sound, takes, (Phrase.stmts?_exists d.body).mp ⟨f.body, body⟩⟩
  · rintro ⟨few, sound, takes, fits⟩
    obtain ⟨body, value⟩ := (Phrase.stmts?_exists d.body).mpr fits
    exact ⟨⟨d.head.name.text, d.params.length, _, body⟩, few, sound, takes, rfl, rfl, rfl, value⟩

namespace Grammar

/-- What is read as a function is written in the tokens that are read. -/
theorem function_elaborates {ts rest : List Token} {f : Function}
    (read : Reads (function ts) f rest)
    : ∃ l d, ts = l ++ rest ∧ Definition.Spelled l d ∧ d.Elaborates f := by
  obtain ⟨head, _, left, _, ps, _, window, frame, body, read₁, read₂, read₃, found, laid, read₄,
    rfl⟩ := reads_function.mp read
  obtain ⟨h, rfl, named⟩ := reads_param.mp read₁
  obtain ⟨rfl, opening⟩ := reads_expect.mp read₂
  obtain ⟨p, right, rfl, given, closing⟩ := reads_params.mp read₃
  obtain ⟨first, r, rfl, begins, read₅⟩ := reads_block.mp read₄
  obtain ⟨b, phrases, last, rfl, inner, ends, value⟩ := items_spelled r read₅
  -- The scan has seen the tokens that the block was read from.
  obtain rfl : window = first :: (b ++ [last]) :=
    Except.ok.inj (found.symm.trans (braceWindow_spelled begins inner ends))
  let d : Definition := ⟨head, ps, phrases⟩
  obtain ⟨few, sound, takes, rfl⟩ :=
    (Definition.ofBody_spelled (d := d) begins inner ends).mp laid
  exact ⟨h ++ left :: (p ++ right :: first :: (b ++ [last])), d, by simp,
    .mk named opening given closing begins inner ends, few, sound, takes, rfl, rfl, rfl, value⟩

/-- A function that is written with every `else` in its place is read. -/
theorem reads_function_of_elaborates {l rest : List Token} {d : Definition} {f : Function}
    (spelled : Definition.Spelled l d) (near : Phrase.AllNearest d.body)
    (elaborates : d.Elaborates f)
    : Reads (function (l ++ rest)) f rest := by
  obtain @⟨h, p, b, head, ps, phrases, left, right, first, last, named, opening, given, closing,
    begins, inner, ends⟩ := spelled
  let d : Definition := ⟨head, ps, phrases⟩
  obtain ⟨few, sound, takes, name, paramCount, locals, value⟩ := elaborates
  have laid : Frame.ofBody head.name ps (first :: (b ++ [last]))
      = .ok (Frame.empty.addAll d.entries) :=
    (Definition.ofBody_spelled (d := d) begins inner ends).mpr ⟨few, sound, takes, rfl⟩
  have parts : h ++ left :: (p ++ right :: first :: (b ++ [last])) ++ rest
      = h ++ left :: (p ++ right :: first :: (b ++ last :: rest)) := by
    simp
  have block : Reads (block (Frame.empty.addAll d.entries) (first :: (b ++ last :: rest))) f.body
      rest :=
    reads_block.mpr ⟨first, _, rfl, begins, reads_items_of_spelled inner near value ends⟩
  have same : f = ⟨head.name.text, ps.length, (Frame.empty.addAll d.entries).locals, f.body⟩ := by
    rw [← locals, ← paramCount, ← name]
  rw [parts]
  exact reads_function.mpr ⟨head, _, left, _, ps, _, _, _, f.body,
    reads_param.mpr ⟨h, rfl, named⟩, reads_expect.mpr ⟨rfl, opening⟩,
    reads_params.mpr ⟨p, right, rfl, given, closing⟩, braceWindow_spelled begins inner ends,
    laid, block, same⟩

/-- A well-formed function that is spelled is read. -/
theorem reads_function_of_spelled {l rest : List Token} {d : Definition}
    (spelled : Definition.Spelled l d) (formed : d.WellFormed)
    : ∃ f, Reads (function (l ++ rest)) f rest := by
  obtain @⟨h, p, b, head, ps, phrases, left, right, first, last, named, opening, given, closing,
    begins, inner, ends⟩ := spelled
  -- Only the derivation that gives every `else` to the nearest `if` can be followed. It has
  -- the same leaves, and nothing else counts for the variables and names.
  obtain ⟨phrases', inner', near, leaves⟩ := inner.nearest
  have formed' : Definition.WellFormed ⟨head, ps, phrases'⟩ := by
    rw [Definition.wellFormed_iff] at formed ⊢
    simpa only [Definition.entries, leaves] using formed
  obtain ⟨f, elaborates⟩ := Definition.elaborates_exists.mpr formed'
  exact ⟨f, reads_function_of_elaborates (.mk named opening given closing begins inner' ends) near
    elaborates⟩

/-- Functions that are read are written in the tokens. -/
theorem functions_elaborate {ts : List Token} {fs : List Function} (read : functions ts = .ok fs)
    : ∃ ds, Definition.AllSpelled ts ds ∧ List.Forall₂ Definition.Elaborates ds fs := by
  induction fs generalizing ts with
  | nil =>
      rcases functions_eq_ok.mp read with ⟨rfl, -⟩ | ⟨_, _, _, -, -, other⟩
      · exact ⟨[], .nil, .nil⟩
      · cases other
  | cons f fs ih =>
      rcases functions_eq_ok.mp read with ⟨-, other⟩ | ⟨_, r, _, first, others, same⟩
      · cases other
      · cases same
        obtain ⟨l, d, rfl, spelled, elaborates⟩ := function_elaborates first
        obtain ⟨ds, allSpelled, allElaborate⟩ := ih others
        exact ⟨d :: ds, .cons spelled allSpelled, .cons elaborates allElaborate⟩

/-- Functions that are read are spelled by the tokens, and are well formed. -/
theorem functions_spelled {ts : List Token} {fs : List Function} (read : functions ts = .ok fs)
    : ∃ ds, Definition.AllSpelled ts ds ∧ ∀ d ∈ ds, d.WellFormed := by
  obtain ⟨ds, spelled, elaborate⟩ := functions_elaborate read
  refine ⟨ds, spelled, ?_⟩
  clear spelled read
  induction elaborate with
  | nil => simp
  | cons first _ ih =>
      exact List.forall_mem_cons.mpr ⟨Definition.elaborates_exists.mp ⟨_, first⟩, ih⟩

/-- Well-formed functions that are spelled are read. -/
theorem functions_of_spelled {ts : List Token} {ds : List Definition}
    (spelled : Definition.AllSpelled ts ds) (formed : ∀ d ∈ ds, d.WellFormed)
    : ∃ fs, functions ts = .ok fs := by
  induction spelled with
  | nil => exact ⟨[], functions_eq_ok.mpr (.inl ⟨rfl, rfl⟩)⟩
  | @cons l r d ds first others ih =>
      obtain ⟨own, formed⟩ := List.forall_mem_cons.mp formed
      obtain ⟨f, read⟩ : ∃ f, Reads (function (l ++ r)) f r :=
        reads_function_of_spelled first own
      obtain ⟨fs, more⟩ := ih formed
      exact ⟨f :: fs, functions_eq_ok.mpr (.inr ⟨f, r, fs, read, more, rfl⟩)⟩

/-- Functions that are written with every `else` in its place are read. -/
theorem functions_of_elaborate {ts : List Token} {ds : List Definition} {fs : List Function}
    (spelled : Definition.AllSpelled ts ds) (near : ∀ d ∈ ds, Phrase.AllNearest d.body)
    (elaborate : List.Forall₂ Definition.Elaborates ds fs)
    : functions ts = .ok fs := by
  induction spelled generalizing fs with
  | nil =>
      cases elaborate
      exact functions_eq_ok.mpr (.inl ⟨rfl, rfl⟩)
  | @cons l r d ds first others ih =>
      obtain ⟨own, near⟩ := List.forall_mem_cons.mp near
      cases elaborate with
      | @cons _ f _ fs elaborates more =>
          exact functions_eq_ok.mpr
            (.inr ⟨f, r, fs, reads_function_of_elaborates first own elaborates, ih near more, rfl⟩)

end Grammar

/-- The tokens that are a program are exactly those that the grammar spells as functions that
are all well formed.
-/
theorem ofTokens_accepts (ts : List Token)
    : (∃ program, Program.ofTokens ts = .ok program)
      ↔ ∃ ds, Definition.AllSpelled ts ds ∧ ∀ d ∈ ds, d.WellFormed := by
  constructor
  · rintro ⟨program, read⟩
    exact Grammar.functions_spelled (Program.ofTokens_eq_ok.mp read)
  · rintro ⟨ds, spelled, formed⟩
    obtain ⟨fs, found⟩ := Grammar.functions_of_spelled spelled formed
    exact ⟨⟨fs⟩, Program.ofTokens_eq_ok.mpr found⟩

namespace Roomy

/-- A function with an array of the given length. -/
def tokens (length : Token) : List Token :=
  [⟨.type .int, "int", 0, 0⟩, ⟨.identifier, "f", 0, 4⟩, ⟨.openParen, "(", 0, 5⟩,
    ⟨.closeParen, ")", 0, 6⟩, ⟨.openBrace, "\x7b", 0, 7⟩, ⟨.type .int, "int", 0, 8⟩,
    ⟨.identifier, "a", 0, 12⟩, ⟨.openBracket, "[", 0, 13⟩, length, ⟨.closeBracket, "]", 0, 23⟩,
    ⟨.semicolon, ";", 0, 24⟩, ⟨.closeBrace, "\x7d", 0, 25⟩]

/-- The length of an array that fills a frame. -/
def whole : Token :=
  ⟨.constant, "268435454", 268435454, 14⟩

/-- The length of an array that is one element too long. -/
def excessive : Token :=
  ⟨.constant, "268435455", 268435455, 14⟩

/-- The function as it is written. -/
def definition : Definition :=
  ⟨⟨.int, 0, ⟨.identifier, "f", 0, 4⟩⟩, [],
    [.declare ⟨.int, 0, ⟨.identifier, "a", 0, 12⟩⟩ (some whole)]⟩

theorem spelled : Definition.AllSpelled (tokens whole) [definition] := by
  have head : Param.Spelled ((tokens whole).take 2) definition.head :=
    @Param.Spelled.mk _ _ _ [] rfl (by simp) rfl
  have array : Param.Spelled [⟨.type .int, "int", 0, 8⟩, ⟨.identifier, "a", 0, 12⟩]
      ⟨.int, 0, ⟨.identifier, "a", 0, 12⟩⟩ :=
    @Param.Spelled.mk _ _ _ [] rfl (by simp) rfl
  have declared : Phrase.AllSpelled ((tokens whole).extract 5 11) definition.body :=
    .cons (.declare array (.some rfl rfl rfl) rfl) .nil
  exact .cons (.mk head rfl .none rfl rfl declared rfl) .nil

theorem formed : definition.WellFormed where
  few := by decide
  distinct := by decide
  lengths := by decide
  fits := by decide
  known := by decide
  sized := by simp [Definition.terms, definition, Phrase.leavesOf, Phrase.leaves, Leaf.terms]

end Roomy

/-- The array that fills a frame is accepted, and an array with one more element is not. -/
theorem ofTokens_accepts_whole
    : (∃ program, Program.ofTokens (Roomy.tokens Roomy.whole) = .ok program)
      ∧ Program.ofTokens (Roomy.tokens Roomy.excessive)
        = .error ⟨.invalidArrayLength 268435455, 14⟩
      ∧ ¬ ∃ ds, Definition.AllSpelled (Roomy.tokens Roomy.excessive) ds
          ∧ ∀ d ∈ ds, d.WellFormed := by
  have refused : Program.ofTokens (Roomy.tokens Roomy.excessive)
      = .error ⟨.invalidArrayLength 268435455, 14⟩ := by with_unfolding_all rfl
  refine ⟨?_, refused, ?_⟩
  · exact (ofTokens_accepts _).mpr ⟨[Roomy.definition], Roomy.spelled, by simpa using Roomy.formed⟩
  · intro accepted
    obtain ⟨program, read⟩ := (ofTokens_accepts _).mpr accepted
    rw [refused] at read
    cases read

end SlotC
