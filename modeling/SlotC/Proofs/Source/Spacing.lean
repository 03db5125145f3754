import SlotC.Compile
import SlotC.Proofs.Grammar.LikePrograms
import SlotC.Proofs.Source.Division

/-! The blanks between tokens do not matter. The tokens of a source text with other blanks
between them are scanned as the same lexemes at other places, and places are only carried along
to the errors of the grammar.
-/

namespace SlotC

-----------------------------------------------------------------------------------------
-- Scanning
-----------------------------------------------------------------------------------------

namespace Token

/-- The texts of the tokens with gaps before, between and after them. -/
def spread : List String → List Token → String
  | [], _ => ""
  | gap :: _, [] => gap
  | gap :: gaps, t :: ts => gap ++ (t.text ++ spread gaps ts)

/-- The gaps around a number of tokens are blanks, one at least between two tokens. -/
structure Gaps (gaps : List String) (count : Nat) : Prop where
  length : gaps.length = count + 1
  blank : ∀ gap ∈ gaps, ∀ c ∈ gap.toList, Text.isBlank c
  apart : ∀ gap ∈ gaps.tail.dropLast, gap ≠ ""

variable {gap : String} {gaps : List String} {count : Nat} {ts ts' : List Token}

theorem Gaps.tail (h : Gaps (gap :: gaps) (count + 1)) : Gaps gaps count := by
  refine ⟨Nat.succ.inj h.length, fun g inside => h.blank g (List.mem_cons_of_mem gap inside), ?_⟩
  intro g inside
  apply h.apart
  rcases gaps with _ | ⟨next, _ | ⟨after, gaps⟩⟩
  · cases inside
  · cases inside
  · exact List.mem_cons_of_mem next inside

/-- Blanks follow a token. -/
theorem Gaps.isBlank_head (h : Gaps (gap :: gaps) (ts.length + 1))
    : ∀ c ∈ (spread gaps ts).toList.head?, Text.isBlank c := by
  obtain ⟨length, blank, apart⟩ := h
  rcases gaps with _ | ⟨next, gaps⟩
  · cases length
  intro c first
  cases ts with
  | nil => exact blank next (by simp) c (List.mem_of_mem_head? first)
  | cons t ts =>
      rcases gaps with _ | ⟨after, gaps⟩
      · cases length
      have some : next ≠ "" := apart next (by simp)
      obtain ⟨c', more, chars⟩ := List.exists_cons_of_ne_nil (mt String.toList_eq_nil_iff.mp some)
      rw [spread, String.toList_append, chars] at first
      cases first
      exact blank next (by simp) c (by simp [chars])

/-- The tokens divide their texts with gaps between them. -/
theorem divides_spread (lexical : ∀ t ∈ ts, t.lexeme.Lexical) (fit : Gaps gaps ts.length)
    (pos : Nat)
    : ∃ ts', Divides pos (spread gaps ts).toList ts' ∧ ts'.map lexeme = ts.map lexeme
        ∧ ∀ i t, ts'[i]? = some t →
            t.pos = pos + (spread (gaps.take (i + 1)) (ts.take i)).utf8ByteSize := by
  induction ts generalizing gaps pos with
  | nil =>
      obtain ⟨gap, rfl⟩ := List.length_eq_one_iff.mp fit.length
      exact ⟨[], .done (fit.blank gap (by simp)), rfl, by simp⟩
  | cons t ts ih =>
      rcases gaps with _ | ⟨gap, gaps⟩
      · cases fit.length
      obtain ⟨own, lexical⟩ := List.forall_mem_cons.mp lexical
      let t' : Token := { t with pos := pos + gap.utf8ByteSize }
      obtain ⟨ts', divides, same, places⟩ := ih lexical fit.tail t'.endPos
      have place : t'.pos = pos + (String.ofList gap.toList).utf8ByteSize := by
        rw [String.ofList_toList]
      have ends : ∀ c ∈ (spread gaps ts).toList.head?, t'.kind.mayPrecede c :=
        fun c first => Kind.mayPrecede_of_isBlank (fit.isBlank_head c first) t'.kind
      refine ⟨t' :: ts', ?_, by rw [List.map_cons, same]; rfl, ?_⟩
      · rw [spread, String.toList_append, String.toList_append]
        exact .token (fit.blank gap (by simp)) place own ends divides
      · intro i u found
        cases i with
        | zero =>
            cases found
            rfl
        | succ i =>
            rw [places i u found]
            simp only [List.take_succ_cons, spread, String.utf8ByteSize_append, endPos, t']
            omega

/-- Tokens of the same lexemes at related places are alike. -/
theorem alike_of_lexemes {P : Nat → Nat → Prop} (same : ts'.map lexeme = ts.map lexeme)
    (places : ∀ (i : Nat) (t t' : Token), ts[i]? = some t → ts'[i]? = some t' → P t.pos t'.pos)
    : Token.Alike P id ts ts' := by
  induction ts generalizing ts' with
  | nil =>
      obtain rfl := List.map_eq_nil_iff.mp same
      exact .nil
  | cons t ts ih =>
      obtain ⟨t', ts', rfl, own, others⟩ := List.map_eq_cons_iff.mp same
      obtain ⟨kind, text, value, pos⟩ := t'
      obtain ⟨rfl, rfl, rfl⟩ : kind = t.kind ∧ text = t.text ∧ value = t.value := by
        simpa [lexeme] using own
      have rest : Token.Alike P id ts ts' := ih others fun i => places (i + 1)
      rw [← Token.retold_id t ts]
      exact .cons (places 0 t _ rfl rfl) rest

end Token

-----------------------------------------------------------------------------------------
-- Reading and compiling
-----------------------------------------------------------------------------------------

/-- The places of tokens with the same index. -/
def Token.Places (ts ts' : List Token) (pos pos' : Nat) : Prop :=
  ∃ (i : Nat) (t t' : Token), ts[i]? = some t ∧ ts'[i]? = some t' ∧ pos = t.pos ∧ pos' = t'.pos

/-- The errors are of the same stage and have the same cause; if tokens have been rejected, then
tokens with the same index, and otherwise the tokens ended too early.
-/
inductive CompileError.Alike (ts ts' : List Token) : CompileError → CompileError → Prop where
  | rejected {error error' : SyntaxError} (alike : error.Alike (Token.Places ts ts') id error')
      : Alike ts ts' (.parse error) (.parse error')
  | ended {pos pos' : Nat} (first : Token.EndAt ts pos) (second : Token.EndAt ts' pos')
      : Alike ts ts' (.parse ⟨.unexpectedEnd, pos⟩) (.parse ⟨.unexpectedEnd, pos'⟩)
  | generate {error : CodeError} : Alike ts ts' (.generate error) (.generate error)

section

variable {s s' : String} {ts ts' : List Token}

theorem Program.ofTokens_agree (alike : Token.Alike (Token.Places ts ts') id ts ts')
    : Agree (CompileError.Alike ts ts') Eq ((Program.ofTokens ts).mapError .parse)
        ((Program.ofTokens ts').mapError .parse) := by
  unfold Program.ofTokens
  rcases (Grammar.functions_same alike).ok_or_error with
    ⟨fs, fs', read, read', same⟩ | ⟨failure, failure', failed, failed', alike⟩
  · rw [read, read', same]
    exact .ok rfl
  · rw [failed, failed']
    cases alike with
    | ranOut => exact .error (.ended (Token.endAt_endOf ts) (Token.endAt_endOf ts'))
    | rejected alike => exact .error (.rejected alike)

theorem Program.ofSource_of_scan (scanned : Token.scan s = .ok ts)
    : Program.ofSource s = (Program.ofTokens ts).mapError .parse := by
  rw [Program.ofSource, scanned]
  rfl

/-- Source texts of like tokens have the same compiled form, or their errors are alike. -/
theorem compile_agree (scanned : Token.scan s = .ok ts) (scanned' : Token.scan s' = .ok ts')
    (alike : Token.Alike (Token.Places ts ts') id ts ts')
    : Agree (CompileError.Alike ts ts') Eq (compile s) (compile s') := by
  unfold compile listingOfSource
  rw [Program.ofSource_of_scan scanned, Program.ofSource_of_scan scanned']
  refine Agree.bind (R := Eq) ((Program.ofTokens_agree alike).bind fun {program _} same => ?_)
    fun same => ?_
  · subst same
    cases program.listing with
    | ok listing => exact .ok rfl
    | error error => exact .error .generate
  · subst same
    exact .ok rfl

end

/-- The tokens of a source text with other blanks before, between and after them are scanned as
the same lexemes, each where its text begins. Then either both texts are compiled, to the same
text, or both are refused in the same stage for the same cause. What the grammar refuses is the
token with the same index, or the end after the last token.
-/
theorem compile_spread (s : String) (ts : List Token) (gaps : List String)
    (scanned : Token.scan s = .ok ts) (fit : Token.Gaps gaps ts.length)
    : ∃ ts', Token.scan (Token.spread gaps ts) = .ok ts'
        ∧ ts'.map Token.lexeme = ts.map Token.lexeme
        ∧ (∀ i t, ts'[i]? = some t →
            t.pos = (Token.spread (gaps.take (i + 1)) (ts.take i)).utf8ByteSize)
        ∧ Agree (CompileError.Alike ts ts') Eq (compile s) (compile (Token.spread gaps ts)) := by
  have divides := Token.scanFrom_eq_ok.mp (mapError_eq_ok.mp scanned)
  obtain ⟨ts', divides', same, places⟩ := Token.divides_spread divides.lexical fit 0
  have scanned' : Token.scan (Token.spread gaps ts) = .ok ts' :=
    mapError_eq_ok.mpr (Token.scanFrom_eq_ok.mpr divides')
  refine ⟨ts', scanned', same, fun i t found => ?_, ?_⟩
  · rw [places i t found, Nat.zero_add]
  · refine compile_agree scanned scanned' (Token.alike_of_lexemes same ?_)
    exact fun i t t' found found' => ⟨i, t, t', found, found', rfl, rfl⟩

namespace Wide

/-- A function with an unknown variable, without blanks that could be left out. -/
def source : String :=
  "int f()\x7breturn x<=1;\x7d"

/-- The tokens of the function. -/
def tokens : List Token :=
  [⟨.type .int, "int", 0, 0⟩, ⟨.identifier, "f", 0, 4⟩, ⟨.openParen, "(", 0, 5⟩,
    ⟨.closeParen, ")", 0, 6⟩, ⟨.openBrace, "\x7b", 0, 7⟩, ⟨.returnWord, "return", 0, 8⟩,
    ⟨.identifier, "x", 0, 15⟩, ⟨.lessEqual, "<=", 0, 16⟩, ⟨.constant, "1", 1, 18⟩,
    ⟨.semicolon, ";", 0, 19⟩, ⟨.closeBrace, "\x7d", 0, 20⟩]

/-- Blanks of one, two and three bytes. -/
def gaps : List String :=
  ["", "\t", " ", "\u00a0", "\n\n", "\u3000", "  ", " ", "\r\n", "\u2003", " ", "\n"]

end Wide

/-- The variable is unknown in both texts. -/
theorem compile_spread_wide
    : Token.scan Wide.source = .ok Wide.tokens ∧ Token.Gaps Wide.gaps Wide.tokens.length
      ∧ ∃ ts', Token.scan (Token.spread Wide.gaps Wide.tokens) = .ok ts'
          ∧ ts'.map Token.lexeme = Wide.tokens.map Token.lexeme
          ∧ (∀ i t, ts'[i]? = some t →
              t.pos = (Token.spread (Wide.gaps.take (i + 1)) (Wide.tokens.take i)).utf8ByteSize)
          ∧ Agree (CompileError.Alike Wide.tokens ts') Eq (compile Wide.source)
              (compile (Token.spread Wide.gaps Wide.tokens)) := by
  have scanned : Token.scan Wide.source = .ok Wide.tokens := by with_unfolding_all rfl
  have blank : Wide.gaps.all (fun gap => gap.toList.all Text.isBlank) := rfl
  have fit : Token.Gaps Wide.gaps Wide.tokens.length :=
    ⟨rfl, fun gap inside => List.all_eq_true.mp (List.all_eq_true.mp blank gap inside), by decide⟩
  exact ⟨scanned, fit, compile_spread Wide.source Wide.tokens Wide.gaps scanned fit⟩

end SlotC
