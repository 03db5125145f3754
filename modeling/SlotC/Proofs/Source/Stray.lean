import SlotC.Proofs.Source.Division

/-! Where the scan of a source text stops. It stops at the first character that no token can be
made of: the text before that character divides into tokens, and nothing after it matters, except
that an equals sign would make a mark of an exclamation mark.
-/

namespace SlotC

/-- The characters that are tokens by themselves. -/
def Kind.marks : List Char :=
  ['(', ')', '\x7b', '\x7d', '[', ']', ';', ',', '+', '-', '*', '/', '&', '=', '<', '>']

/-- A character is a token by itself if it is one of the marks. -/
theorem Kind.ofChar?_eq_none {c : Char} : ofChar? c = none ↔ c ∉ marks := by
  unfold ofChar?
  split
  iterate 16 simp [marks]
  · simp_all [marks]

/-- The exclamation mark is the only character that needs an equals sign after it. -/
theorem Kind.ofCharEqual?_eq_none {c : Char} (unmarked : ofChar? c = none) (other : c ≠ '!')
    : ofCharEqual? c = none := by
  unfold ofCharEqual?
  split
  · cases unmarked
  · exact absurd rfl other
  · cases unmarked
  · cases unmarked
  · rfl

namespace Token

/-- No token starts with the character where the given characters follow it, and it is no blank. -/
def StartsNone (c : Char) (after : List Char) : Prop :=
  (c = '!' ∧ after.head? ≠ some '=')
  ∨ (Text.isBlank c = false ∧ isWordChar c = false ∧ c ≠ '!' ∧ c ∉ Kind.marks)

/-- The character at the given place is neither blank nor part of a token, after the tokens that
stand before it: it starts none, or it would start a word right behind a number.
-/
def Misplaced (ts : List Token) (pos : Nat) (c : Char) (after : List Char) : Prop :=
  StartsNone c after
  ∨ (isWordStart c ∧ ∃ t, ts.getLast? = some t ∧ t.kind = .constant ∧ t.endPos = pos)

section

variable {pos : Nat} {c first : Char} {cs more after before : List Char} {t : Token}
variable {ts : List Token} {stray : Stray}

-----------------------------------------------------------------------------------------
-- Characters that start no token
-----------------------------------------------------------------------------------------

theorem StartsNone.isBlank (alone : StartsNone c after) : Text.isBlank c = false := by
  rcases alone with ⟨rfl, -⟩ | ⟨visible, -⟩
  · rfl
  · exact visible

theorem StartsNone.isWordChar (alone : StartsNone c after) : isWordChar c = false := by
  rcases alone with ⟨rfl, -⟩ | ⟨-, outside, -⟩
  · rfl
  · exact outside

/-- What starts no token does not belong to the token before it either. -/
theorem StartsNone.mayPrecede (alone : StartsNone c after) (kind : Kind) : kind.mayPrecede c := by
  have noEqual : c ≠ '=' := by
    rintro rfl
    rcases alone with ⟨same, -⟩ | ⟨-, -, -, outside⟩
    · cases same
    · exact outside (by decide)
  exact Kind.mayPrecede_of_apart noEqual alone.isWordChar kind

theorem isDigit_of_isWordChar (outside : isWordChar c = false) : c.isDigit = false := by
  by_contra digit
  rw [Lexeme.isWordChar_of_isDigit (by simpa using digit)] at outside
  cases outside

theorem isWordStart_of_isWordChar (outside : isWordChar c = false) : isWordStart c = false := by
  by_contra starts
  rw [Lexeme.isWordChar_of_isWordStart (by simpa using starts)] at outside
  cases outside

/-- There is no kind for what starts no token. -/
theorem StartsNone.kindOf?_eq (alone : StartsNone c after)
    : kindOf? c (extent c after).1 = none := by
  have noDigit := isDigit_of_isWordChar alone.isWordChar
  have noWord := isWordStart_of_isWordChar alone.isWordChar
  rcases alone with ⟨rfl, single⟩ | ⟨-, -, other, outside⟩
  · have apart : ∀ c ∈ after.head?, c ≠ '=' := by
      rintro c next rfl
      exact single next
    rw [Lexeme.extent_eq_nil noDigit noWord (.inr apart)]
    rfl
  · have unmarked := Kind.ofChar?_eq_none.mpr outside
    rw [Lexeme.extent_eq_nil noDigit noWord (.inl (Kind.ofCharEqual?_eq_none unmarked other))]
    simpa [kindOf?, noDigit, noWord] using unmarked

/-- What there is no kind for starts no token. -/
theorem startsNone_of_kindOf? (visible : Text.isBlank c = false)
    (unknown : kindOf? c (extent c after).1 = none)
    : StartsNone c after := by
  have noDigit : c.isDigit = false := by
    by_contra digit
    simp_all [kindOf?]
  have noWord : isWordStart c = false := by
    by_contra starts
    simp_all [kindOf?]
  have outside : isWordChar c = false := by
    simp_all [isWordStart, isWordChar, Char.isAlphanum]
  rcases extent_cases noDigit noWord after with ⟨single, apart⟩ | ⟨kind, rest, pair, rfl, both⟩
  · rw [single] at unknown
    have unmarked : Kind.ofChar? c = none := by simpa [kindOf?, noDigit, noWord] using unknown
    by_cases bang : c = '!'
    · subst bang
      have apart := apart.resolve_left (by decide)
      exact .inl ⟨rfl, fun next => apart '=' next rfl⟩
    · exact .inr ⟨visible, outside, bang, Kind.ofChar?_eq_none.mp unmarked⟩
  · simp [both, kindOf?, noDigit, noWord, pair] at unknown

-----------------------------------------------------------------------------------------
-- Stopping
-----------------------------------------------------------------------------------------

/-- The scan stops at what starts no token. -/
theorem StartsNone.scanFrom_eq (alone : StartsNone c after)
    : scanFrom pos (c :: after) = .error ⟨pos, c⟩ := by
  rw [scanFrom, alone.isBlank]
  simp [alone.kindOf?_eq]

/-- The scan stops at a word that a number runs into. -/
theorem scanFrom_number (lexical : t.lexeme.Lexical) (number : t.kind = .constant)
    (starts : isWordStart c)
    : scanFrom t.pos (t.text.toList ++ c :: after) = .error ⟨t.endPos, c⟩ := by
  obtain ⟨first, more, text, digit, digits⟩ := lexical.isDigit number
  have text : t.text.toList = first :: more := text
  have visible := Lexeme.isBlank_of_isWordChar (Lexeme.isWordChar_of_isDigit digit)
  have stops : ∀ d ∈ (c :: after).head?, d.isDigit = false := by
    intro d next
    cases next
    exact Lexeme.isDigit_of_isWordStart starts
  obtain ⟨taken, left⟩ := Lexeme.span_append digits stops
  rw [endPos_eq, text, List.cons_append, scanFrom, visible]
  simp [extent, kindOf?, digit, taken, left, starts, Option.filter]

/-- Only a number has the kind of numbers. -/
theorem isDigit_of_kindOf? (number : kindOf? first more = some .constant) : first.isDigit := by
  by_contra noDigit
  by_cases starts : isWordStart first
  · simp only [kindOf?, noDigit, starts, ↓reduceIte, Option.some.injEq] at number
    exact Kind.ofWord_ne_constant _ number
  · simp only [kindOf?, noDigit, starts, Bool.false_eq_true, ↓reduceIte] at number
    cases more with
    | nil =>
        simp only [Kind.ofChar?] at number
        split at number <;> cases number
    | cons =>
        simp only [Kind.ofCharEqual?] at number
        split at number <;> cases number

/-- One token more before a character that is misplaced. -/
theorem Misplaced.cons (h : Misplaced ts pos c after) (t : Token)
    : Misplaced (t :: ts) pos c after := by
  rcases h with alone | ⟨starts, last, found, number, ends⟩
  · exact .inl alone
  · refine .inr ⟨starts, last, ?_, number, ends⟩
    rw [List.getLast?_cons, found]
    rfl

/-- Where the scan stops, what is before divides into tokens and the character is misplaced. -/
theorem misplaced_of_scanFrom (failed : scanFrom pos cs = .error stray)
    : ∃ before after ts, cs = before ++ stray.char :: after
        ∧ stray.pos = pos + byteLength before ∧ Divides pos before ts
        ∧ Misplaced ts stray.pos stray.char after := by
  fun_induction scanFrom pos cs with
  | case1 => cases failed
  | case2 pos first cs blank ih =>
      obtain ⟨before, after, ts, rfl, place, divides, misplaced⟩ := ih failed
      refine ⟨first :: before, after, ts, rfl, ?_, divides.cons blank, misplaced⟩
      rw [place, Nat.add_assoc]
      rfl
  | case3 pos first cs visible more unknown =>
      cases failed
      have alone := startsNone_of_kindOf? (by simpa using visible) unknown
      exact ⟨[], cs, [], rfl, rfl, .done (by simp), .inl alone⟩
  | case4 pos first cs visible more rest next char word found =>
      cases failed
      obtain ⟨head, starts⟩ := Option.filter_eq_some_iff.mp word
      obtain ⟨after, behind⟩ : ∃ after, rest = char :: after := List.head?_eq_some_iff.mp head
      let t : Token := ⟨.constant, String.ofList (first :: more),
        valueOf .constant (first :: more), pos⟩
      have divides : Divides pos (first :: more ++ []) [t] :=
        .ofChars (lexical_extent (isDigit_of_kindOf? found) cs) (by simp) (.done (by simp))
      have ends : t.endPos = next := by rw [endPos_eq, String.toList_ofList]
      rw [List.append_nil] at divides
      refine ⟨first :: more, after, [t], ?_, rfl, divides, .inr ⟨starts, t, rfl, rfl, ends⟩⟩
      rw [List.cons_append, ← behind, extent_append]
  | case5 pos first cs visible more rest next kind found apart ih =>
      cases ended : scanFrom next rest with
      | ok tokens =>
          rw [ended] at failed
          cases failed
      | error error =>
          rw [ended] at failed
          cases failed
          obtain ⟨before, after, ts, behind, place, divides, misplaced⟩ := ih ended
          obtain ⟨lexical, ends⟩ := lexical_of_kindOf? found apart
          have ends' : ∀ c ∈ before.head?, kind.mayPrecede c := by
            intro c head
            refine ends c ?_
            change c ∈ rest.head?
            rw [behind, List.head?_append, head]
            rfl
          refine ⟨first :: more ++ before, after, _, ?_, ?_, .ofChars lexical ends' divides,
            misplaced.cons _⟩
          · rw [List.append_assoc, ← behind, List.cons_append, extent_append]
          · rw [place, byteLength_append]
            omega

theorem eq_nil_of_byteLength (empty : byteLength cs = 0) : cs = [] := by
  cases cs with
  | nil => rfl
  | cons c cs =>
      have positive := c.utf8Size_pos
      have sum : byteLength (c :: cs) = c.utf8Size + byteLength cs := rfl
      omega

/-- A character that is misplaced stops the scan. -/
theorem Divides.scanFrom_misplaced (divides : Divides pos before ts)
    (misplaced : Misplaced ts (pos + byteLength before) c after)
    : scanFrom pos (before ++ c :: after) = .error ⟨pos + byteLength before, c⟩ := by
  induction divides with
  | done blank =>
      rcases misplaced with alone | ⟨-, _, found, -⟩
      · rw [scanFrom_append blank, alone.scanFrom_eq]
      · cases found
  | @token pos blanks rest t ts blank place lexical ends others ih =>
      rw [add_byteLength place] at misplaced ⊢
      rw [List.append_assoc, List.append_assoc, scanFrom_append blank, byteLength_eq blanks,
        ← place]
      have further (ends' : ∀ d ∈ (rest ++ c :: after).head?, t.kind.mayPrecede d)
          (misplaced' : Misplaced ts (t.endPos + byteLength rest) c after)
          : scanFrom t.pos (t.text.toList ++ (rest ++ c :: after))
            = .error ⟨t.endPos + byteLength rest, c⟩ := by
        rw [scanFrom_lexeme lexical ends', endPos, ih misplaced']
        rfl
      rcases misplaced with alone | ⟨starts, last, found, number, ended⟩
      · refine further ?_ (.inl alone)
        cases rest with
        | nil =>
            intro d next
            cases next
            exact alone.mayPrecede t.kind
        | cons => exact ends
      · cases ts with
        | nil =>
            obtain rfl : t = last := by simpa using found
            obtain rfl : rest = [] := eq_nil_of_byteLength (by omega)
            exact scanFrom_number lexical number starts
        | cons u us =>
            rw [List.getLast?_cons_cons] at found
            refine further ?_ (.inr ⟨starts, last, found, number, ended⟩)
            cases rest with
            | nil =>
                have scanned := others.scanFrom_eq
                rw [scanFrom] at scanned
                cases scanned
            | cons => exact ends

/-- A text ends with its last token if the token ends where the text does. -/
theorem Divides.suffix (divides : Divides pos before ts) (last : ts.getLast? = some t)
    (ends : t.endPos = pos + byteLength before)
    : t.text.toList <:+ before := by
  induction divides with
  | done => cases last
  | @token pos blanks rest u ts _ place _ _ _ ih =>
      rw [add_byteLength place] at ends
      cases ts with
      | nil =>
          obtain rfl : u = t := by simpa using last
          obtain rfl : rest = [] := eq_nil_of_byteLength (by omega)
          rw [List.append_nil]
          exact List.suffix_append blanks _
      | cons =>
          rw [List.getLast?_cons_cons] at last
          have inner := ih last ends
          rw [← List.append_assoc]
          exact inner.trans (List.suffix_append _ rest)

/-- What comes after a character that starts no token does not matter, but for an equals sign. -/
theorem Misplaced.elsewhere {other : List Char} (misplaced : Misplaced ts pos c after)
    (apart : c = '!' → other.head? ≠ some '=')
    : Misplaced ts pos c other := by
  rcases misplaced with (⟨bang, -⟩ | outside) | number
  · exact .inl (.inl ⟨bang, apart bang⟩)
  · exact .inl (.inr outside)
  · exact .inr number

theorem scan_eq_error {source : String} {error : ScanError}
    : scan source = .error error
      ↔ error.source = source ∧ scanFrom 0 source.toList = .error ⟨error.pos, error.char⟩ := by
  obtain ⟨text, pos, char⟩ := error
  unfold scan
  cases scanFrom 0 source.toList with
  | ok ts => simp [Except.mapError]
  | error stray =>
      obtain ⟨pos', char'⟩ := stray
      simp [Except.mapError, eq_comm]

end

end Token

/-- A scan that fails stops at a character of the text, with the text and the place in the error.
The text before the character can be scanned. The character is an exclamation mark without an
equals sign, or it starts a word right behind a number, or it is none that stands in a token. Every
text with the same beginning up to it is stopped at the same place.
-/
theorem scan_stops (source : String) (error : ScanError) (failed : Token.scan source = .error error)
    : error.source = source
      ∧ ∃ before after ts, source = before ++ error.char.toString ++ after
          ∧ error.pos = before.utf8ByteSize ∧ Token.scan before = .ok ts
          ∧ ((error.char = '!' ∧ after.toList.head? ≠ some '=')
            ∨ (Token.isWordStart error.char ∧ ∃ head t, ts.getLast? = some t ∧ t.kind = .constant
                ∧ before = head ++ t.text ∧ t.text ≠ "" ∧ ∀ d ∈ t.text.toList, d.isDigit)
            ∨ (Text.isBlank error.char = false ∧ Token.isWordChar error.char = false
                ∧ error.char ≠ '!' ∧ error.char ∉ Kind.marks))
          ∧ ∀ other, (error.char = '!' → other.toList.head? ≠ some '=') →
              Token.scan (before ++ error.char.toString ++ other)
                = .error ⟨before ++ error.char.toString ++ other, error.pos, error.char⟩ := by
  obtain ⟨own, failed⟩ := Token.scan_eq_error.mp failed
  obtain ⟨before, after, ts, parts, place, divides, misplaced⟩ :=
    Token.misplaced_of_scanFrom failed
  dsimp only at parts place misplaced
  have joined (other : String) : (String.ofList before ++ error.char.toString ++ other).toList
      = before ++ error.char :: other.toList := by
    simp
  refine ⟨own, String.ofList before, String.ofList after, ts, ?_, ?_, ?_, ?_, ?_⟩
  · rw [← String.toList_inj, joined, String.toList_ofList]
    exact parts
  · rw [place, Nat.zero_add, Token.byteLength_eq]
  · exact mapError_eq_ok.mpr (Token.scanFrom_eq_ok.mpr (String.toList_ofList ▸ divides))
  · rw [String.toList_ofList]
    rcases misplaced with (bang | outside) | ⟨starts, t, last, number, ends⟩
    · exact .inl bang
    · exact .inr (.inr outside)
    · obtain ⟨head, same⟩ := divides.suffix last (ends.trans place)
      have lexical := divides.lexical t (List.mem_of_getLast? last)
      obtain ⟨first, more, text, digits⟩ := lexical.isDigit number
      have text : t.text.toList = first :: more := text
      refine .inr (.inl ⟨starts, String.ofList head, t, last, number, ?_, ?_, ?_⟩)
      · rw [← same, String.ofList_append, String.ofList_toList]
      · rintro empty
        rw [empty] at text
        cases text
      · rw [text]
        exact List.forall_mem_cons.mpr digits
  · intro other apart
    refine Token.scan_eq_error.mpr ⟨rfl, ?_⟩
    rw [place] at misplaced
    rw [joined, place]
    exact divides.scanFrom_misplaced (misplaced.elsewhere apart)

namespace Glued

/-- A blank of two bytes, a name, a mark and a number that runs into a word. -/
def source : String :=
  "\u00a0a<12b"

end Glued

/-- The scan stops at the letter behind the number, whatever follows it. -/
theorem scan_stops_glued
    : Token.scan Glued.source = .error ⟨Glued.source, 6, 'b'⟩
      ∧ ∃ before after ts, Glued.source = before ++ "b" ++ after ∧ 6 = before.utf8ByteSize
          ∧ Token.scan before = .ok ts
          ∧ (∃ head t, ts.getLast? = some t ∧ t.kind = .constant ∧ before = head ++ t.text)
          ∧ ∀ other, Token.scan (before ++ "b" ++ other)
              = .error ⟨before ++ "b" ++ other, 6, 'b'⟩ := by
  have failed : Token.scan Glued.source = .error ⟨Glued.source, 6, 'b'⟩ := by with_unfolding_all rfl
  obtain ⟨-, before, after, ts, parts, place, scanned, cause, everywhere⟩ := scan_stops _ _ failed
  have other : 'b' ≠ '!' := by decide
  refine ⟨failed, before, after, ts, parts, place, scanned, ?_,
    fun rest => everywhere rest fun same => absurd same other⟩
  rcases cause with ⟨bang, -⟩ | ⟨-, head, t, last, number, same, -⟩ | ⟨-, outside, -⟩
  · cases bang
  · exact ⟨head, t, last, number, same⟩
  · cases outside

end SlotC
