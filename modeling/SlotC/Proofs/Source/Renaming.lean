import SlotC.Proofs.Code.Renumbering
import SlotC.Proofs.Grammar.LikePrograms

/-! The names of variables do not matter. Tokens with other names for the variables spell the
same program with other names in its frames, and its code is the same.
-/

namespace SlotC

/-- The tokens with `r` applied to the names that no parenthesis follows directly. -/
def Token.rename (r : String → String) : List Token → List Token
  | [] => []
  | t :: ts => { t with text := t.retold r ts } :: rename r ts

theorem Token.alike_rename (r : String → String) (ts : List Token)
    : Token.Alike Eq r ts (rename r ts) := by
  induction ts with
  | nil => exact .nil
  | cons t ts ih => exact .cons rfl ih

-----------------------------------------------------------------------------------------
-- Code
-----------------------------------------------------------------------------------------

/-- Other names for variables stand in errors only. -/
theorem Program.listing_rename (r : String → String) (program : Program)
    : (program.rename r).listing = program.listing.mapError (CodeError.rename r) := by
  have emitted : Emit.functions (program.functions.map (Function.rename r)) .initial
      = (Emit.functions program.functions .initial).later 0 r :=
    Emit.later_renamed (k := 0) program.functions .initial
  unfold Program.listing Program.rename
  rw [emitted, Emission.later, Listing.later_zero]
  rcases Emit.functions program.functions .initial with ⟨ls, g, error | _⟩ <;> rfl

-----------------------------------------------------------------------------------------
-- Programs
-----------------------------------------------------------------------------------------

/-- Tokens with other names for the variables spell a program exactly if the tokens do: the same
program with other names for the variables. It has code exactly if the first has, and then the
same.
-/
theorem ofTokens_rename (r : String → String) (injective : Function.Injective r)
    (ts : List Token)
    : (∃ program, Program.ofTokens ts = .ok program
        ∧ Program.ofTokens (Token.rename r ts) = .ok (program.rename r)
        ∧ ∀ listing, (program.rename r).listing = .ok listing ↔ program.listing = .ok listing)
      ∨ ∃ error error', Program.ofTokens ts = .error error
          ∧ Program.ofTokens (Token.rename r ts) = .error error' := by
  have alike := Grammar.functions_alike (r := ⟨r, injective⟩) (Token.alike_rename r ts)
  unfold Program.ofTokens
  rcases alike.ok_or_error with ⟨fs, fs', read, read', renamed⟩ | ⟨_, _, failed, failed', -⟩
  · rw [read, read', renamed]
    refine .inl ⟨⟨fs⟩, rfl, rfl, fun listing => ?_⟩
    rw [Program.listing_rename]
    exact mapError_eq_ok
  · rw [failed, failed']
    exact .inr ⟨_, _, rfl, rfl⟩

namespace Shadow

/-- A function with a parameter of its own name, which it calls itself with. -/
def tokens : List Token :=
  [⟨.type .int, "int", 0, 0⟩, ⟨.identifier, "f", 0, 4⟩, ⟨.openParen, "(", 0, 5⟩,
    ⟨.type .int, "int", 0, 6⟩, ⟨.identifier, "f", 0, 10⟩, ⟨.closeParen, ")", 0, 11⟩,
    ⟨.openBrace, "\x7b", 0, 13⟩, ⟨.returnWord, "return", 0, 15⟩, ⟨.identifier, "f", 0, 22⟩,
    ⟨.openParen, "(", 0, 23⟩, ⟨.identifier, "f", 0, 24⟩, ⟨.closeParen, ")", 0, 25⟩,
    ⟨.semicolon, ";", 0, 26⟩, ⟨.closeBrace, "\x7d", 0, 28⟩]

/-- The program of the function, with a name for the parameter. -/
def program (param : String) : Program :=
  ⟨[⟨"f", 1, [⟨param, .int, 8, 0, 0, some 0⟩], [.ret (.call "f" [.var 0])]⟩]⟩

/-- Another name for every variable. -/
def mark (name : String) : String :=
  "own_" ++ name

end Shadow

/-- The parameter has another name, and the function that is called has not. -/
theorem ofTokens_rename_shadow
    : Function.Injective Shadow.mark
      ∧ Program.ofTokens Shadow.tokens = .ok (Shadow.program "f")
      ∧ Program.ofTokens (Token.rename Shadow.mark Shadow.tokens) = .ok (Shadow.program "own_f")
      ∧ ∀ listing, (Shadow.program "own_f").listing = .ok listing
          ↔ (Shadow.program "f").listing = .ok listing := by
  have injective : Function.Injective Shadow.mark :=
    fun _ _ same => (String.append_right_inj "own_").mp same
  have read : Program.ofTokens Shadow.tokens = .ok (Shadow.program "f") := by with_unfolding_all rfl
  refine ⟨injective, read, ?_⟩
  rcases ofTokens_rename Shadow.mark injective Shadow.tokens with
    ⟨program, read', renamed, code⟩ | ⟨_, _, failed, -⟩
  · obtain rfl : Shadow.program "f" = program := Except.ok.inj (read.symm.trans read')
    exact ⟨renamed, code⟩
  · rw [read] at failed
    cases failed

end SlotC
