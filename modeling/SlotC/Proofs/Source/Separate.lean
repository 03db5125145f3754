import SlotC.Compile
import SlotC.Proofs.Code.Numbering
import SlotC.Proofs.Code.Renumbering
import SlotC.Proofs.Grammar.Extension
import SlotC.Proofs.Source.Division

/-! Separate compilation. Two source texts with blanks between them are scanned, read and
compiled one after the other; the second finds its tokens at later places and its labels with
later numbers, and nothing else of the first.
-/

namespace SlotC

-----------------------------------------------------------------------------------------
-- Scanning
-----------------------------------------------------------------------------------------

namespace Token

variable {pos : Nat} {cs cs' blanks : List Char} {ts ts' : List Token}

/-- Blanks before the first token. -/
theorem Divides.prepend (blank : ∀ c ∈ blanks, Text.isBlank c)
    (h : Divides (pos + byteLength blanks) cs ts)
    : Divides pos (blanks ++ cs) ts := by
  induction blanks generalizing pos with
  | nil => exact h
  | cons c blanks ih =>
      obtain ⟨own, others⟩ := List.forall_mem_cons.mp blank
      refine .cons own (ih others ?_)
      rwa [Nat.add_assoc]

/-- A text at a later place has its tokens at later places. -/
theorem Divides.move (h : Divides pos cs ts) (distance : Nat)
    : Divides (pos + distance) cs (ts.map (Token.move (· + distance))) := by
  induction h with
  | done blank => exact .done blank
  | @token pos blanks rest t ts blank place lexical ends _ ih =>
      have place' : (t.move (· + distance)).pos
          = pos + distance + (String.ofList blanks).utf8ByteSize := by
        show t.pos + distance = _
        omega
      refine .token (t := t.move (· + distance)) blank place' lexical ends ?_
      rw [Nat.add_right_comm] at ih
      exact ih

/-- A text that begins with a blank may follow another one. -/
theorem Divides.append (first : Divides pos cs ts)
    (second : Divides (pos + byteLength cs) cs' ts') (apart : ∀ c ∈ cs'.head?, Text.isBlank c)
    : Divides pos (cs ++ cs') (ts ++ ts') := by
  induction first with
  | done blank => exact second.prepend blank
  | @token pos blanks rest t ts blank place lexical ends _ ih =>
      have after := add_byteLength place rest
      have ends' : ∀ c ∈ (rest ++ cs').head?, t.kind.mayPrecede c := by
        cases rest with
        | nil => exact fun c next => Kind.mayPrecede_of_isBlank (apart c next) t.kind
        | cons c rest => exact ends
      rw [List.append_assoc, List.append_assoc]
      exact .token blank place lexical ends' (ih (after ▸ second))

/-- Two texts with blanks between them are scanned one after the other. -/
theorem scan_append {s₁ w s₂ : String} {ts₁ ts₂ : List Token} (first : scan s₁ = .ok ts₁)
    (second : scan s₂ = .ok ts₂) (nonempty : w ≠ "") (blank : ∀ c ∈ w.toList, Text.isBlank c)
    : ∃ distance, scan (s₁ ++ w ++ s₂) = .ok (ts₁ ++ ts₂.map (Token.move (· + distance))) := by
  have divides₁ := scanFrom_eq_ok.mp (mapError_eq_ok.mp first)
  have divides₂ := scanFrom_eq_ok.mp (mapError_eq_ok.mp second)
  let distance := byteLength s₁.toList + byteLength w.toList
  have apart : ∀ c ∈ (w.toList ++ s₂.toList).head?, Text.isBlank c := by
    intro c next
    cases chars : w.toList with
    | nil => exact absurd (String.toList_eq_nil_iff.mp chars) nonempty
    | cons c' more =>
        rw [chars] at next blank
        cases next
        exact blank c (List.mem_cons_self)
  have later : Divides (0 + byteLength s₁.toList) (w.toList ++ s₂.toList)
      (ts₂.map (Token.move (· + distance))) := by
    refine .prepend blank ?_
    have moved := divides₂.move distance
    rwa [Nat.add_assoc]
  refine ⟨distance, mapError_eq_ok.mpr (scanFrom_eq_ok.mpr ?_)⟩
  rw [String.toList_append, String.toList_append, List.append_assoc]
  exact divides₁.append later apart

end Token

-----------------------------------------------------------------------------------------
-- Reading
-----------------------------------------------------------------------------------------

/-- Two programs are read one after the other, wherever their tokens are. -/
theorem Program.ofTokens_append {ts₁ ts₂ : List Token} {p₁ p₂ : Program} (p : Nat → Nat)
    (first : Program.ofTokens ts₁ = .ok p₁) (second : Program.ofTokens ts₂ = .ok p₂)
    : Program.ofTokens (ts₁ ++ ts₂.map (Token.move p)) = .ok ⟨p₁.functions ++ p₂.functions⟩ := by
  rw [Program.ofTokens_eq_ok] at first second ⊢
  rw [Grammar.functions_append first, Grammar.functions_moved second]
  rfl

-----------------------------------------------------------------------------------------
-- Code
-----------------------------------------------------------------------------------------

namespace Emit

variable {fs fs' : List Function} {g g' : GenState} {ls : Listing}

/-- Functions leave the stack as it was. -/
theorem functions_depth (h : (functions fs).Emits g ls g' ()) (level : g.depth = 0)
    : g'.depth = 0 := by
  induction fs generalizing g ls with
  | nil =>
      obtain ⟨-, rfl⟩ := emits_functions_nil.mp h
      exact level
  | cons f fs ih =>
      obtain ⟨_, _, _, first, others, -⟩ := emits_functions_cons.mp h
      obtain ⟨_, _, -, body, -⟩ := function_emits first
      exact ih others (stmts_state f.body body)

theorem functions_append (fs fs' : List Function)
    : functions (fs ++ fs') = functions fs >>= fun _ => functions fs' := by
  induction fs with
  | nil => rfl
  | cons f fs ih =>
      rw [List.cons_append, functions, functions, ih, bind_assoc]

end Emit

/-- The code of two programs is that of the first and then that of the second, with labels
that come after those of the first.
-/
theorem Program.listing_append {p₁ p₂ : Program} {l₁ l₂ : Listing} (first : p₁.listing = .ok l₁)
    (second : p₂.listing = .ok l₂)
    : Program.listing ⟨p₁.functions ++ p₂.functions⟩ = .ok (l₁ ++ l₂.later p₁.forms.length) := by
  obtain ⟨g₁, emitted₁⟩ := Program.listing_eq_ok.mp first
  obtain ⟨g₂, emitted₂⟩ := Program.listing_eq_ok.mp second
  -- The count of labels is all that the first program leaves to the second.
  have reached : g₁ = GenState.initial.later p₁.forms.length := by
    have next := (Emit.functions_numbered emitted₁).next
    have level := Emit.functions_depth emitted₁ rfl
    obtain ⟨nextLabel, depth⟩ := g₁
    exact congr (congrArg GenState.mk next) level
  have later : (Emit.functions p₂.functions).Emits g₁ (l₂.later p₁.forms.length)
      (g₂.later p₁.forms.length) () := by
    rw [reached, Emit.Emits, Emit.later_functions p₂.functions .initial, emitted₂]
    rfl
  refine Program.listing_eq_ok.mpr ⟨g₂.later p₁.forms.length, ?_⟩
  rw [Emit.functions_append, Emit.emits_bind_unit]
  exact ⟨l₁, g₁, _, emitted₁, later, rfl⟩

-----------------------------------------------------------------------------------------
-- Texts
-----------------------------------------------------------------------------------------

theorem Listing.render_append (first second : Listing)
    : Listing.render (first ++ second) = first.render ++ second.render := by
  rw [render, List.map_append, String.join_append]
  rfl

section

variable {source s₁ w s₂ text : String} {program p₁ p₂ : Program} {listing l₁ l₂ : Listing}

theorem Program.ofSource_eq_ok
    : Program.ofSource source = .ok program
      ↔ ∃ ts, Token.scan source = .ok ts ∧ Program.ofTokens ts = .ok program := by
  simp only [Program.ofSource, bind_eq_ok, mapError_eq_ok]

theorem listingOfSource_eq_ok
    : listingOfSource source = .ok listing
      ↔ ∃ program, Program.ofSource source = .ok program ∧ program.listing = .ok listing := by
  simp only [listingOfSource, bind_eq_ok, mapError_eq_ok]

theorem compile_eq_ok
    : compile source = .ok text
      ↔ ∃ listing, listingOfSource source = .ok listing
          ∧ text = Listing.preamble.render ++ listing.render := by
  simp only [compile, bind_eq_ok, Listing.render_append]
  exact exists_congr fun listing => and_congr_right fun _ => by simp [pure, Except.pure, eq_comm]

/-- Two source texts with blanks between them are read as one program after the other. -/
theorem Program.ofSource_append (first : Program.ofSource s₁ = .ok p₁)
    (second : Program.ofSource s₂ = .ok p₂) (nonempty : w ≠ "")
    (blank : ∀ c ∈ w.toList, Text.isBlank c)
    : Program.ofSource (s₁ ++ w ++ s₂) = .ok ⟨p₁.functions ++ p₂.functions⟩ := by
  obtain ⟨ts₁, scanned₁, read₁⟩ := Program.ofSource_eq_ok.mp first
  obtain ⟨ts₂, scanned₂, read₂⟩ := Program.ofSource_eq_ok.mp second
  obtain ⟨distance, scanned⟩ := Token.scan_append scanned₁ scanned₂ nonempty blank
  exact Program.ofSource_eq_ok.mpr ⟨_, scanned, Program.ofTokens_append _ read₁ read₂⟩

end

/-- The text of two source texts with blanks between them is the text of the first, and after
it the code of the second, with the number of every label in it later by the number of
conditional statements and loops in the first.
-/
theorem compile_append (s₁ w s₂ text₁ text₂ : String) (first : compile s₁ = .ok text₁)
    (second : compile s₂ = .ok text₂) (nonempty : w ≠ "")
    (blank : ∀ c ∈ w.toList, Text.isBlank c)
    : ∃ program l₁ l₂, Program.ofSource s₁ = .ok program
        ∧ listingOfSource s₁ = .ok l₁ ∧ text₁ = Listing.preamble.render ++ l₁.render
        ∧ listingOfSource s₂ = .ok l₂ ∧ text₂ = Listing.preamble.render ++ l₂.render
        ∧ compile (s₁ ++ w ++ s₂)
            = .ok (Listing.preamble.render ++ l₁.render
                ++ (l₂.later program.forms.length).render) := by
  obtain ⟨l₁, listed₁, shown₁⟩ := compile_eq_ok.mp first
  obtain ⟨l₂, listed₂, shown₂⟩ := compile_eq_ok.mp second
  obtain ⟨p₁, read₁, generated₁⟩ := listingOfSource_eq_ok.mp listed₁
  obtain ⟨p₂, read₂, generated₂⟩ := listingOfSource_eq_ok.mp listed₂
  refine ⟨p₁, l₁, l₂, read₁, listed₁, shown₁, listed₂, shown₂, ?_⟩
  refine compile_eq_ok.mpr ⟨l₁ ++ l₂.later p₁.forms.length, ?_, ?_⟩
  · exact listingOfSource_eq_ok.mpr ⟨_, Program.ofSource_append read₁ read₂ nonempty blank,
      Program.listing_append generated₁ generated₂⟩
  · rw [Listing.render_append, String.append_assoc]

namespace Pair

/-- A function with a loop. -/
def first : String :=
  "int f(int n) \x7b while (n) n = n - 1; \x7d"

/-- The program of the function. -/
def loop : Program :=
  ⟨[⟨"f", 1, [⟨"n", .int, 8, 0, 0, some 0⟩],
    [.whileLoop (.var 0)
      (.expr (.assign (.var 0) (.binary .subtract (.var 0) (.constant 1))))]⟩]⟩

/-- A function with a conditional statement in a loop. -/
def second : String :=
  "int g() \x7b for (;;) if (f(2)) return 1; \x7d"

/-- The program of the function. -/
def branch : Program :=
  ⟨[⟨"g", 0, [],
    [.forLoop none none none (.branch (.call "f" [.constant 2]) (.ret (.constant 1)) none)]⟩]⟩

end Pair

/-- The labels of the second function count on from that of the first. -/
theorem compile_append_pair
    : ∃ text₁ text₂ l₁ l₂, compile Pair.first = .ok text₁ ∧ compile Pair.second = .ok text₂
        ∧ listingOfSource Pair.first = .ok l₁ ∧ listingOfSource Pair.second = .ok l₂
        ∧ compile (Pair.first ++ "\n" ++ Pair.second)
            = .ok (Listing.preamble.render ++ l₁.render ++ Listing.render (l₂.later 1)) := by
  have read₁ : Program.ofSource Pair.first = .ok Pair.loop := by with_unfolding_all rfl
  have read₂ : Program.ofSource Pair.second = .ok Pair.branch := by with_unfolding_all rfl
  have compiled₁ := compile_eq_ok.mpr ⟨_, listingOfSource_eq_ok.mpr ⟨_, read₁, rfl⟩, rfl⟩
  have compiled₂ := compile_eq_ok.mpr ⟨_, listingOfSource_eq_ok.mpr ⟨_, read₂, rfl⟩, rfl⟩
  have nonempty : "\n" ≠ "" := by decide
  have blank : ∀ c ∈ "\n".toList, Text.isBlank c := List.all_eq_true.mp rfl
  obtain ⟨program, l₁, l₂, read, listed₁, -, listed₂, -, compiled⟩ :=
    compile_append Pair.first "\n" Pair.second _ _ compiled₁ compiled₂ nonempty blank
  obtain rfl : Pair.loop = program := Except.ok.inj (read₁.symm.trans read)
  exact ⟨_, _, l₁, l₂, compiled₁, compiled₂, listed₁, listed₂, compiled⟩

end SlotC
