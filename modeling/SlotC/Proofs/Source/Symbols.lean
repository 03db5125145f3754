import SlotC.Proofs.Assembly.Reading
import SlotC.Proofs.Source.Names
import SlotC.Proofs.Source.Separate

/-! The names that a listing defines. Every function of a program defines its own name, and all
other labels are numbered. So no label is defined twice if and only if no two functions have the
same name, and nothing keeps a source text from giving one name to two functions.
-/

namespace SlotC

-----------------------------------------------------------------------------------------
-- Names among labels
-----------------------------------------------------------------------------------------

/-- The name that the label defines, if it is not numbered. -/
def Label.symbol? : Label → Option String
  | .symbol name => some name
  | .otherwise _ | .finish _ | .start _ => none

namespace Label

variable {ls : List Label}

/-- Labels without numbers are names. -/
theorem filter_symbols (ls : List Label)
    : ls.filter (fun l => !l.isNumbered) = (ls.filterMap symbol?).map .symbol := by
  induction ls with
  | nil => rfl
  | cons l ls ih =>
      cases l with
      | symbol name => exact congrArg (.symbol name :: ·) ih
      | otherwise | finish | start => exact ih

/-- Where the numbered labels are different, all are if the names are. -/
theorem nodup_iff_symbols (numbered : (ls.filter isNumbered).Nodup)
    : ls.Nodup ↔ (ls.filterMap symbol?).Nodup := by
  have parts := List.filter_append_perm isNumbered ls
  rw [filter_symbols] at parts
  rw [← parts.nodup_iff, List.nodup_append]
  constructor
  · rintro ⟨-, named, -⟩
    exact named.of_map
  · intro named
    refine ⟨numbered, named.map fun _ _ same => Label.symbol.inj same, ?_⟩
    rintro l member _ other rfl
    obtain ⟨name, -, rfl⟩ := List.mem_map.mp other
    cases (List.mem_filter.mp member).2

/-- Labels are different if and only if their texts are. -/
theorem nodup_map_render (named : ∀ l ∈ ls, l.Named) : (ls.map render).Nodup ↔ ls.Nodup := by
  refine ⟨List.Nodup.of_map _, fun distinct => distinct.map_on fun l inside l' inside' same => ?_⟩
  have read := ofText?_render (named l inside)
  rw [same, ofText?_render (named l' inside')] at read
  exact (Option.some.inj read).symm

end Label

-----------------------------------------------------------------------------------------
-- Names that code defines
-----------------------------------------------------------------------------------------

/-- The names that the lines define, in order. -/
def Listing.symbols (ls : Listing) : List String :=
  ls.labels.filterMap Label.symbol?

@[simp] theorem Listing.symbols_append (first second : Listing)
    : symbols (first ++ second) = first.symbols ++ second.symbols := by
  rw [symbols, labels_append, List.filterMap_append]
  rfl

namespace Emit

variable {f : Function} {fs : List Function} {g g' : GenState} {ls : Listing}

/-- The code of statements defines no name. -/
theorem stmts_symbols {ss : List Stmt} (h : (stmts f ss).Emits g ls g' ()) : ls.symbols = [] := by
  have numbered := stmts_numbered ss h
  refine List.filterMap_eq_nil_iff.mpr fun l member => ?_
  have own := numbered.isNumbered member
  cases l with
  | symbol => cases own
  | otherwise | finish | start => rfl

/-- The code of a function defines its name. -/
theorem function_symbols (h : (function f).Emits g ls g' ()) : ls.symbols = [f.name] := by
  obtain ⟨l₁, l₂, stored, body, rfl⟩ := function_emits h
  have head : (Listing.prologue f.name f.frame).symbols = [f.name] := by
    rw [Listing.symbols, Listing.labels_prologue]
    rfl
  have spills : Listing.symbols l₁ = [] := by
    rw [Listing.symbols, stored.labels_eq_nil]
    rfl
  rw [Listing.symbols_append, Listing.symbols_append, Listing.symbols_append, head, spills,
    stmts_symbols body]
  rfl

/-- The code of functions defines their names, in order. -/
theorem functions_symbols (h : (functions fs).Emits g ls g' ())
    : ls.symbols = fs.map Function.name := by
  induction fs generalizing g ls with
  | nil =>
      obtain ⟨rfl, -⟩ := emits_functions_nil.mp h
      rfl
  | cons f fs ih =>
      obtain ⟨l₁, g₁, l₂, first, others, rfl⟩ := emits_functions_cons.mp h
      rw [Listing.symbols_append, function_symbols first, ih others]
      rfl

end Emit

section

variable {program : Program} {listing : Listing}

theorem Program.symbols_listing (generated : program.listing = .ok listing)
    : listing.symbols = program.functions.map Function.name := by
  obtain ⟨g, emitted⟩ := Program.listing_eq_ok.mp generated
  exact Emit.functions_symbols emitted

/-- The labels of a program are different if and only if the names of its functions are. -/
theorem Program.nodup_labels (generated : program.listing = .ok listing)
    : listing.labels.Nodup ↔ (program.functions.map Function.name).Nodup := by
  obtain ⟨g, emitted⟩ := Program.listing_eq_ok.mp generated
  rw [← Program.symbols_listing generated]
  exact Label.nodup_iff_symbols (Emit.functions_numbered emitted).distinct

/-- Names that are read from a source text are words. -/
theorem Program.named_labels {source : String} (read : Program.ofSource source = .ok program)
    (generated : program.listing = .ok listing)
    : ∀ l ∈ listing.labels, l.Named := by
  intro l member
  cases l with
  | symbol name =>
      have inside : name ∈ listing.symbols := List.mem_filterMap.mpr ⟨.symbol name, member, rfl⟩
      rw [Program.symbols_listing generated] at inside
      obtain ⟨f, own, rfl⟩ := List.mem_map.mp inside
      exact (Program.wellFormed_of_ofSource read f own).name.chars
  | otherwise | finish | start => trivial

end

/-- A compiled text defines the names of the functions of its source text, in order. No two labels
in it have the same text if and only if no two of the functions have the same name.
-/
theorem compile_symbols (source text : String) (compiled : compile source = .ok text)
    : ∃ program listing, Program.ofSource source = .ok program ∧ program.listing = .ok listing
        ∧ text = Listing.render (Listing.preamble ++ listing)
        ∧ Listing.symbols (Listing.preamble ++ listing) = program.functions.map Function.name
        ∧ (((Listing.labels (Listing.preamble ++ listing)).map Label.render).Nodup
          ↔ (program.functions.map Function.name).Nodup) := by
  obtain ⟨listing, listed, shown⟩ := compile_eq_ok.mp compiled
  obtain ⟨program, read, generated⟩ := listingOfSource_eq_ok.mp listed
  rw [← Listing.render_append] at shown
  -- The lines before all functions have no label.
  have symbols : Listing.symbols (Listing.preamble ++ listing) = listing.symbols :=
    Listing.symbols_append _ _
  have labels : Listing.labels (Listing.preamble ++ listing) = listing.labels :=
    Listing.labels_append
  refine ⟨program, listing, read, generated, shown, ?_, ?_⟩
  · rw [symbols, Program.symbols_listing generated]
  · rw [labels, Label.nodup_map_render (Program.named_labels read generated),
      Program.nodup_labels generated]

/-- The names of the two functions of `Pair` are different. -/
theorem compile_symbols_pair
    : ∃ text listing, compile (Pair.first ++ "\n" ++ Pair.second) = .ok text
        ∧ text = Listing.render (Listing.preamble ++ listing)
        ∧ Listing.symbols (Listing.preamble ++ listing) = ["f", "g"]
        ∧ ((Listing.labels (Listing.preamble ++ listing)).map Label.render).Nodup := by
  have read : Program.ofSource (Pair.first ++ "\n" ++ Pair.second)
      = .ok ⟨Pair.loop.functions ++ Pair.branch.functions⟩ := by
    with_unfolding_all rfl
  have compiled := compile_eq_ok.mpr ⟨_, listingOfSource_eq_ok.mpr ⟨_, read, rfl⟩, rfl⟩
  obtain ⟨program, listing, read', -, shown, symbols, distinct⟩ := compile_symbols _ _ compiled
  obtain rfl := Except.ok.inj (read.symm.trans read')
  exact ⟨_, listing, compiled, shown, symbols, distinct.mpr (by decide)⟩

namespace Twin

/-- Two functions of the same name. -/
def source : String :=
  "int f() \x7b\x7d int f() \x7b\x7d"

/-- The program of the functions. -/
def program : Program :=
  ⟨[⟨"f", 0, [], []⟩, ⟨"f", 0, [], []⟩]⟩

end Twin

/-- Two functions of the same name are compiled, and then that name is defined twice. -/
theorem compile_twin
    : ∃ text listing, compile Twin.source = .ok text
        ∧ text = Listing.render (Listing.preamble ++ listing)
        ∧ Listing.symbols (Listing.preamble ++ listing) = ["f", "f"]
        ∧ ¬ (Listing.symbols (Listing.preamble ++ listing)).Nodup := by
  have read : Program.ofSource Twin.source = .ok Twin.program := by with_unfolding_all rfl
  obtain ⟨listing, generated⟩ : ∃ listing, Twin.program.listing = .ok listing := ⟨_, rfl⟩
  have compiled := compile_eq_ok.mpr ⟨_, listingOfSource_eq_ok.mpr ⟨_, read, generated⟩, rfl⟩
  have symbols : Listing.symbols (Listing.preamble ++ listing) = ["f", "f"] :=
    (Listing.symbols_append _ _).trans (Program.symbols_listing generated)
  refine ⟨_, listing, compiled, (Listing.render_append _ _).symm, symbols, ?_⟩
  rw [symbols]
  decide

end SlotC
