import Mathlib.Data.List.TakeWhile
import SlotC.Proofs.Source.Lexeme

/-! How a source text divides into tokens. The scan finds the lexemes and the blanks between
them that make up the text, where each lexeme is as long as it can be; there is only one way
to divide a text so, and a text that cannot be divided is an error.
-/

namespace SlotC

namespace Token

/-- The characters, the first of them at the given byte, are the tokens in order with blanks
around them. Each token has its lexeme, its place, and after it a character that does not
belong to it.
-/
inductive Divides : Nat → List Char → List Token → Prop where
  | done {pos : Nat} {blanks : List Char} (blank : ∀ c ∈ blanks, Text.isBlank c)
      : Divides pos blanks []
  | token {pos : Nat} {blanks rest : List Char} {t : Token} {ts : List Token}
      (blank : ∀ c ∈ blanks, Text.isBlank c)
      (place : t.pos = pos + (String.ofList blanks).utf8ByteSize) (lexical : t.lexeme.Lexical)
      (ends : ∀ c ∈ rest.head?, t.kind.mayPrecede c)
      (others : Divides (t.pos + t.text.utf8ByteSize) rest ts)
      : Divides pos (blanks ++ (t.text.toList ++ rest)) (t :: ts)

section

variable {pos : Nat} {first c : Char} {cs blanks rest : List Char} {kind : Kind} {t : Token}
variable {ts : List Token}

theorem byteLength_eq (cs : List Char) : byteLength cs = (String.ofList cs).utf8ByteSize := by
  induction cs with
  | nil => rfl
  | cons c cs ih =>
      rw [String.ofList_cons, String.utf8ByteSize_append, String.utf8ByteSize_singleton, ← ih]
      rfl

theorem byteLength_append (cs cs' : List Char)
    : byteLength (cs ++ cs') = byteLength cs + byteLength cs' := by
  rw [byteLength_eq, byteLength_eq, byteLength_eq, String.ofList_append,
    String.utf8ByteSize_append]

-----------------------------------------------------------------------------------------
-- What is scanned
-----------------------------------------------------------------------------------------

/-- The character after a run is none of the run. -/
theorem eq_false_of_mem_head? {p : Char → Bool} (next : c ∈ (cs.dropWhile p).head?)
    : p c = false := by
  have stops := List.head?_dropWhile_not p cs
  rw [next] at stops
  exact stops

/-- A token ends behind the characters of its text. -/
theorem endPos_eq (t : Token) : t.endPos = t.pos + byteLength t.text.toList := by
  rw [byteLength_eq, String.ofList_toList]
  rfl

/-- A number is its first digit and all that follow it. -/
theorem lexical_extent (digit : first.isDigit) (cs : List Char)
    : Lexeme.Lexical ⟨.constant, String.ofList (first :: (extent first cs).1),
        valueOf .constant (first :: (extent first cs).1)⟩ := by
  simp only [extent, digit, ↓reduceIte]
  refine .digits (by simp) ?_ ?_
  · rw [String.toList_ofList]
    exact List.forall_mem_cons.mpr ⟨digit, fun c member => List.mem_takeWhile_imp member⟩
  · rw [String.toList_ofList]
    exact Lexeme.valueOf_constant_eq_iff.mp rfl

/-- The text up to a token and what follows the token are as long as all together. -/
theorem add_byteLength (place : t.pos = pos + (String.ofList blanks).utf8ByteSize)
    (rest : List Char)
    : pos + byteLength (blanks ++ (t.text.toList ++ rest)) = t.endPos + byteLength rest := by
  rw [byteLength_append, byteLength_append, endPos_eq, place, byteLength_eq blanks]
  omega

/-- A run of digits that is scanned. -/
theorem lexical_of_isDigit (digit : first.isDigit)
    (apart : ∀ c ∈ (extent first cs).2.head?, isWordStart c = false)
    : Lexeme.Lexical ⟨.constant, String.ofList (first :: (extent first cs).1),
        valueOf .constant (first :: (extent first cs).1)⟩
      ∧ ∀ c ∈ (extent first cs).2.head?, Kind.mayPrecede .constant c := by
  refine ⟨lexical_extent digit cs, fun c next => ?_⟩
  have noStart := apart c next
  simp only [extent, digit, ↓reduceIte] at next
  have noDigit := eq_false_of_mem_head? next
  simp_all [Kind.mayPrecede, isWordStart, Char.isAlphanum]

/-- A word that is scanned. -/
theorem lexical_of_isWordStart (starts : isWordStart first) (cs : List Char)
    : Lexeme.Lexical ⟨Kind.ofWord (String.ofList (first :: (extent first cs).1)),
        String.ofList (first :: (extent first cs).1), 0⟩
      ∧ ∀ c ∈ (extent first cs).2.head?,
          (Kind.ofWord (String.ofList (first :: (extent first cs).1))).mayPrecede c := by
  have noDigit := Lexeme.isDigit_of_isWordStart starts
  simp only [extent, noDigit, starts, ↓reduceIte, Bool.false_eq_true]
  refine ⟨?_, ?_⟩
  · by_cases member : String.ofList (first :: cs.takeWhile isWordChar) ∈ keywords
    · obtain ⟨noName, noNumber, spelled, -⟩ := Kind.ofWord_of_mem_keywords member
      have fixed := Lexeme.Lexical.fixed noName noNumber
      rwa [Lexeme.fixed, spelled] at fixed
    · rw [Kind.ofWord_eq_identifier.mpr member]
      have inner : ∀ c ∈ cs.takeWhile isWordChar, isWordChar c :=
        fun c inside => List.mem_takeWhile_imp inside
      exact .name ⟨⟨first, _, String.toList_ofList, starts, inner⟩, member⟩
  · intro c next
    rw [Kind.mayPrecede_ofWord, eq_false_of_mem_head? next]
    rfl

/-- A mark of one character that is scanned. -/
theorem lexical_of_ofChar? (found : Kind.ofChar? first = some kind)
    (apart : Kind.ofCharEqual? first = none ∨ ∀ c ∈ cs.head?, c ≠ '=')
    : Lexeme.Lexical ⟨kind, String.ofList [first], 0⟩ ∧ kind ≠ .constant
      ∧ ∀ c ∈ cs.head?, kind.mayPrecede c := by
  unfold Kind.ofChar? at found
  split at found
  all_goals cases found
  all_goals refine ⟨@Lexeme.Lexical.fixed _ nofun nofun, nofun, ?_⟩
  all_goals first
    | exact fun _ _ => rfl
    | exact fun c next => decide_eq_true (apart.resolve_left nofun c next)

/-- A mark of two characters that is scanned. -/
theorem lexical_of_ofCharEqual? (found : Kind.ofCharEqual? first = some kind)
    : Lexeme.Lexical ⟨kind, String.ofList [first, '='], 0⟩ ∧ kind ≠ .constant
      ∧ ∀ c, kind.mayPrecede c := by
  unfold Kind.ofCharEqual? at found
  split at found
  all_goals cases found
  all_goals exact ⟨@Lexeme.Lexical.fixed _ nofun nofun, nofun, fun _ => rfl⟩

/-- A character that starts neither word nor number is alone, or there is an equals sign after it
that belongs to it.
-/
theorem extent_cases (noDigit : first.isDigit = false) (noWord : isWordStart first = false)
    (cs : List Char)
    : (extent first cs = ([], cs) ∧ (Kind.ofCharEqual? first = none ∨ ∀ c ∈ cs.head?, c ≠ '='))
      ∨ ∃ kind rest, Kind.ofCharEqual? first = some kind ∧ cs = '=' :: rest
          ∧ extent first cs = (['='], rest) := by
  by_cases apart : Kind.ofCharEqual? first = none ∨ ∀ c ∈ cs.head?, c ≠ '='
  · exact .inl ⟨Lexeme.extent_eq_nil noDigit noWord apart, apart⟩
  · obtain ⟨pair, rest, rfl⟩ : Kind.ofCharEqual? first ≠ none ∧ ∃ rest, cs = '=' :: rest := by
      cases cs with
      | nil => simp at apart
      | cons c rest => simpa using apart
    obtain ⟨kind, pair⟩ := Option.ne_none_iff_exists'.mp pair
    exact .inr ⟨kind, rest, pair, rfl, by simp [extent, noDigit, noWord, pair]⟩

/-- Whatever is scanned is a lexeme that is as long as it can be. -/
theorem lexical_of_kindOf? (found : kindOf? first (extent first cs).1 = some kind)
    (apart : ∀ c, kind = .constant → (extent first cs).2.head?.filter isWordStart = some c → False)
    : Lexeme.Lexical ⟨kind, String.ofList (first :: (extent first cs).1),
        valueOf kind (first :: (extent first cs).1)⟩
      ∧ ∀ c ∈ (extent first cs).2.head?, kind.mayPrecede c := by
  by_cases digit : first.isDigit
  · obtain rfl : Kind.constant = kind := by simpa [kindOf?, digit] using found
    refine lexical_of_isDigit digit fun c next => ?_
    by_contra starts
    exact apart c rfl (Option.filter_eq_some_iff.mpr ⟨next, by simpa using starts⟩)
  · by_cases starts : isWordStart first
    · obtain rfl : Kind.ofWord (String.ofList (first :: (extent first cs).1)) = kind := by
        simpa [kindOf?, digit, starts] using found
      obtain ⟨lexical, ends⟩ := lexical_of_isWordStart starts cs
      rw [valueOf, if_neg (Kind.ofWord_ne_constant _)]
      exact ⟨lexical, ends⟩
    · have noDigit : first.isDigit = false := by simpa using digit
      have noWord : isWordStart first = false := by simpa using starts
      rcases extent_cases noDigit noWord cs with ⟨single, apart⟩ | ⟨_, rest, _, rfl, both⟩
      · rw [single] at found ⊢
        simp only [kindOf?, noDigit, noWord, Bool.false_eq_true, ↓reduceIte] at found
        obtain ⟨lexical, noNumber, ends⟩ := lexical_of_ofChar? found apart
        rw [valueOf, if_neg noNumber]
        exact ⟨lexical, ends⟩
      · rw [both] at found ⊢
        simp only [kindOf?, noDigit, noWord, Bool.false_eq_true, ↓reduceIte] at found
        obtain ⟨lexical, noNumber, ends⟩ := lexical_of_ofCharEqual? found
        rw [valueOf, if_neg noNumber]
        exact ⟨lexical, fun c _ => ends c⟩

-----------------------------------------------------------------------------------------
-- Dividing a text
-----------------------------------------------------------------------------------------

/-- A blank more before the first token. -/
theorem Divides.cons (blank : Text.isBlank c) (h : Divides (pos + c.utf8Size) cs ts)
    : Divides pos (c :: cs) ts := by
  cases h with
  | done others => exact .done (List.forall_mem_cons.mpr ⟨blank, others⟩)
  | @token _ blanks rest t ts others place lexical ends rest' =>
      have place' : t.pos = pos + (String.ofList (c :: blanks)).utf8ByteSize := by
        rw [place, ← byteLength_eq, ← byteLength_eq, Nat.add_assoc]
        rfl
      exact .token (List.forall_mem_cons.mpr ⟨blank, others⟩) place' lexical ends rest'

/-- A token before the first one. -/
theorem Divides.ofChars {value : Int64} (lexical : Lexeme.Lexical ⟨kind, String.ofList cs, value⟩)
    (ends : ∀ c ∈ rest.head?, kind.mayPrecede c) (others : Divides (pos + byteLength cs) rest ts)
    : Divides pos (cs ++ rest) (⟨kind, String.ofList cs, value, pos⟩ :: ts) := by
  let t : Token := ⟨kind, String.ofList cs, value, pos⟩
  have text : t.text.toList = cs := String.toList_ofList
  have after : Divides t.endPos rest ts := by rwa [endPos_eq, text]
  have divides : Divides pos ([] ++ (t.text.toList ++ rest)) (t :: ts) :=
    .token (by simp) rfl lexical ends after
  rwa [text] at divides

/-- What is scanned divides the text. -/
theorem divides_of_scanFrom (scanned : scanFrom pos cs = .ok ts) : Divides pos cs ts := by
  fun_induction scanFrom pos cs generalizing ts with
  | case1 =>
      cases scanned
      exact .done (by simp)
  | case2 pos first cs blank ih => exact (ih scanned).cons blank
  | case3 | case4 => cases scanned
  | case5 pos first cs _ more rest next kind found apart =>
      rename_i ih
      obtain ⟨tokens, others, same⟩ := bind_eq_ok.mp scanned
      cases same
      obtain ⟨lexical, ends⟩ := lexical_of_kindOf? found apart
      have divides := Divides.ofChars lexical ends (ih others)
      rwa [List.cons_append, extent_append] at divides

/-- Blanks are passed over. -/
theorem scanFrom_append (blank : ∀ c ∈ blanks, Text.isBlank c)
    : scanFrom pos (blanks ++ cs) = scanFrom (pos + byteLength blanks) cs := by
  induction blanks generalizing pos with
  | nil => rfl
  | cons c blanks ih =>
      obtain ⟨own, others⟩ := List.forall_mem_cons.mp blank
      rw [List.cons_append, scanFrom, if_pos own, ih others, Nat.add_assoc]
      rfl

/-- A lexeme is scanned, if what follows does not belong to it. -/
theorem scanFrom_lexeme (lexical : t.lexeme.Lexical) (ends : ∀ c ∈ rest.head?, t.kind.mayPrecede c)
    : scanFrom t.pos (t.text.toList ++ rest)
      = (scanFrom t.endPos rest).map (t :: ·) := by
  obtain ⟨first, more, scans⟩ := lexical.scans
  have text : t.text.toList = first :: more := scans.text
  have kind : kindOf? first more = some t.kind := scans.kind
  have value : valueOf t.kind (first :: more) = t.value := scans.value
  have own : String.ofList (first :: more) = t.text := by rw [← text, String.ofList_toList]
  have apart : ∀ c, t.kind = .constant → rest.head?.filter isWordStart ≠ some c := by
    intro c number found
    obtain ⟨next, starts⟩ := Option.filter_eq_some_iff.mp found
    have outside := ends c next
    rw [number] at outside
    simp [Kind.mayPrecede_constant, Lexeme.isWordChar_of_isWordStart starts] at outside
  rw [text, List.cons_append, scanFrom, scans.starts, endPos_eq, text]
  simp only [scans.extent rest ends, kind, own, value, Bool.false_eq_true, ↓reduceIte]
  cases scanFrom (t.pos + byteLength (first :: more)) rest <;> rfl

/-- A text that is divided is scanned so. -/
theorem Divides.scanFrom_eq (h : Divides pos cs ts) : scanFrom pos cs = .ok ts := by
  induction h with
  | @done pos blanks blank =>
      rw [← List.append_nil blanks, scanFrom_append blank, scanFrom]
  | token blank place lexical ends _ ih =>
      rw [scanFrom_append blank, byteLength_eq, ← place, scanFrom_lexeme lexical ends, endPos, ih]
      rfl

/-- The scan gives the tokens that divide the text. -/
theorem scanFrom_eq_ok : scanFrom pos cs = .ok ts ↔ Divides pos cs ts :=
  ⟨divides_of_scanFrom, Divides.scanFrom_eq⟩

-----------------------------------------------------------------------------------------
-- Texts of lexemes
-----------------------------------------------------------------------------------------

/-- Every token has a lexeme that can stand in a source text. -/
theorem Divides.lexical (h : Divides pos cs ts) : ∀ t ∈ ts, t.lexeme.Lexical := by
  induction h with
  | done => simp
  | token _ _ lexical _ _ ih => exact List.forall_mem_cons.mpr ⟨lexical, ih⟩

/-- The identifiers among scanned tokens are names. -/
theorem isName_of_scan {source : String} (scanned : scan source = .ok ts)
    : ∀ t ∈ ts, t.kind = .identifier → IsName t.text := by
  intro t member identifier
  have divides := scanFrom_eq_ok.mp (mapError_eq_ok.mp scanned)
  exact (divides.lexical t member).isName identifier

end

end Token

namespace Lexeme

variable {l l' : Lexeme} {ls : List Lexeme}

theorem toList_source_cons
    : (source (l :: l' :: ls)).toList = l.text.toList ++ ' ' :: (source (l' :: ls)).toList := by
  simp [source, String.toList_intercalate]

/-- Lexemes with blanks between them divide their text. -/
theorem divides_source (lexical : ∀ l ∈ ls, l.Lexical) (pos : Nat)
    : ∃ ts, Token.Divides pos (source ls).toList ts ∧ ts.map Token.lexeme = ls := by
  induction ls generalizing pos with
  | nil => exact ⟨[], .done (by simp [source]), rfl⟩
  | cons l ls ih =>
      obtain ⟨own, lexical⟩ := List.forall_mem_cons.mp lexical
      let t : Token := ⟨l.kind, l.text, l.value, pos⟩
      cases ls with
      | nil =>
          have alone : (source [l]).toList = [] ++ (t.text.toList ++ []) := by
            simp [source, t]
          rw [alone]
          exact ⟨[t], .token (by simp) rfl own (by simp) (.done (by simp)), rfl⟩
      | cons l' ls =>
          obtain ⟨ts, divides, same⟩ := ih lexical (t.endPos + ' '.utf8Size)
          have blank : Text.isBlank ' ' := by decide
          have ends : ∀ c ∈ (' ' :: (source (l' :: ls)).toList).head?, t.kind.mayPrecede c := by
            intro c next
            cases next
            exact Kind.mayPrecede_of_isBlank blank _
          refine ⟨t :: ts, ?_, by rw [List.map_cons, same]; rfl⟩
          have parts : (source (l :: l' :: ls)).toList
              = [] ++ (t.text.toList ++ ' ' :: (source (l' :: ls)).toList) :=
            toList_source_cons
          rw [parts]
          exact .token (by simp) rfl own ends (divides.cons blank)

/-- Lexemes with blanks between them are the source text of tokens of these lexemes. -/
theorem scan_source (lexical : ∀ l ∈ ls, l.Lexical)
    : ∃ ts, Token.scan (source ls) = .ok ts ∧ ts.map Token.lexeme = ls := by
  obtain ⟨ts, divides, same⟩ := divides_source lexical 0
  exact ⟨ts, mapError_eq_ok.mpr (Token.scanFrom_eq_ok.mpr divides), same⟩

end Lexeme

/-- A text is scanned as the tokens into which it divides: names, numbers and the lexemes that
are written in one way only, each with its kind, its value and the byte where it starts, and
each as long as it can be, with nothing but blanks before, between and after them.
-/
theorem scan_divides (source : String) (ts : List Token)
    : Token.scan source = .ok ts ↔ Token.Divides 0 source.toList ts := by
  rw [Token.scan, mapError_eq_ok]
  exact Token.scanFrom_eq_ok

/-- A number past `2 ^ 64` wraps around to `1`, `<=` is one token, and so is a name that starts
like a keyword.
-/
theorem scan_divides_wrapped
    : Token.Divides 0 "18446744073709551617<=ifx".toList
        [⟨.constant, "18446744073709551617", 1, 0⟩, ⟨.lessEqual, "<=", 0, 20⟩,
          ⟨.identifier, "ifx", 0, 22⟩] :=
  (scan_divides "18446744073709551617<=ifx" _).mp (by with_unfolding_all rfl)

end SlotC
