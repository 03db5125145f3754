import Mathlib.Data.Int.ModEq
import Mathlib.Tactic.Tauto
import SlotC.Proofs.Frame.Layout
import SlotC.Token.Scan

/-! Lexemes: tokens without their places. A lexeme is scanned for what it is unless the
character after it could still belong to it, and nothing else is scanned.
-/

namespace SlotC

/-- The words that are no names. -/
def keywords : List String :=
  ["if", "else", "while", "for", "return", "sizeof", "int"]

/-- A letter or underscore, with letters, digits and underscores after it, that is no keyword.
-/
structure IsName (text : String) : Prop where
  chars : ∃ first more, text.toList = first :: more ∧ (first.isAlpha || first == '_')
    ∧ ∀ c ∈ more, c.isAlphanum || c == '_'
  free : text ∉ keywords

/-- Words are identifiers unless they are keywords. -/
theorem Kind.ofWord_eq_identifier {word : String}
    : Kind.ofWord word = .identifier ↔ word ∉ keywords := by
  unfold Kind.ofWord
  split
  iterate 6 simp [keywords]
  next noIf noElse noWhile noFor noReturn noSizeof =>
    by_cases int : word = "int"
    · subst int
      simp [keywords, Scalar.ofKeyword?, Scalar.name]
    · have other : ¬ "int" = word := Ne.symm int
      simp_all [keywords, Scalar.ofKeyword?, Scalar.name]

/-- What a token says, wherever it stands. -/
structure Lexeme where
  kind : Kind
  text : String
  value : Int64
deriving DecidableEq, Repr

/-- The lexeme of a token. -/
def Token.lexeme (t : Token) : Lexeme :=
  ⟨t.kind, t.text, t.value⟩

namespace Lexeme

/-- A name. -/
def name (text : String) : Lexeme :=
  ⟨.identifier, text, 0⟩

/-- A number, written as its value modulo 2^64. -/
def number (value : Int64) : Lexeme :=
  ⟨.constant, toString (value.toInt % 2 ^ 64).toNat, value⟩

/-- A lexeme that is written in one way only. -/
def fixed (kind : Kind) : Lexeme :=
  ⟨kind, kind.spelling, 0⟩

/-- The lexeme can stand in a source text: it is a name, a run of digits with the value that
they have modulo 2^64, or one that is written in one way only.
-/
inductive Lexical : Lexeme → Prop where
  | name {text : String} (own : IsName text) : Lexical (.name text)
  | digits {text : String} {value : Int64} (nonempty : text ≠ "")
      (all : ∀ c ∈ text.toList, c.isDigit)
      (same : value.toInt ≡ Nat.ofDigitChars 10 text.toList 0 [ZMOD 2 ^ 64])
      : Lexical ⟨.constant, text, value⟩
  | fixed {kind : Kind} (noName : kind ≠ .identifier) (noNumber : kind ≠ .constant)
      : Lexical (.fixed kind)

/-- The source text of lexemes, with a blank between any two of them. -/
def source (ls : List Lexeme) : String :=
  " ".intercalate (ls.map Lexeme.text)

end Lexeme

/-- Whether the character may come right after a lexeme of the kind: an equals sign would make
another lexeme of some, and letters, digits and underscores belong to words and numbers.
-/
def Kind.mayPrecede : Kind → Char → Bool
  | .assign, c | .less, c | .greater, c => c ≠ '='
  | .identifier, c | .constant, c | .type _, c | .ifWord, c | .elseWord, c | .whileWord, c
  | .forWord, c | .returnWord, c | .sizeofWord, c => !(c.isAlphanum || c == '_')
  | _, _ => true

namespace Kind

/-- A keyword is spelled as it is, and no word goes on after it. -/
theorem ofWord_of_mem_keywords {word : String} (member : word ∈ keywords)
    : ofWord word ≠ .identifier ∧ ofWord word ≠ .constant ∧ (ofWord word).spelling = word
      ∧ ∀ c, (ofWord word).mayPrecede c = !Token.isWordChar c := by
  simp only [keywords, List.mem_cons, List.not_mem_nil, or_false] at member
  rcases member with rfl | rfl | rfl | rfl | rfl | rfl | rfl
    <;> exact ⟨nofun, nofun, rfl, fun _ => rfl⟩

theorem ofWord_ne_constant (word : String) : ofWord word ≠ .constant := by
  by_cases member : word ∈ keywords
  · exact (ofWord_of_mem_keywords member).2.1
  · rw [ofWord_eq_identifier.mpr member]
    nofun

/-- No digit, letter or underscore belongs to a number that has ended. -/
theorem mayPrecede_constant (c : Char) : mayPrecede .constant c = !Token.isWordChar c :=
  rfl

/-- No word goes on after the end of a word. -/
theorem mayPrecede_ofWord (word : String) (c : Char)
    : (ofWord word).mayPrecede c = !Token.isWordChar c := by
  by_cases member : word ∈ keywords
  · exact (ofWord_of_mem_keywords member).2.2.2 c
  · rw [ofWord_eq_identifier.mpr member]
    rfl

end Kind

namespace Lexeme

-----------------------------------------------------------------------------------------
-- Scanning one lexeme
-----------------------------------------------------------------------------------------

/-- The scan takes the lexeme for what it is, if what follows does not belong to it. -/
structure Scans (l : Lexeme) (first : Char) (more : List Char) : Prop where
  text : l.text.toList = first :: more
  starts : Text.isBlank first = false
  kind : Token.kindOf? first more = some l.kind
  value : Token.valueOf l.kind (first :: more) = l.value
  extent : ∀ rest : List Char, (∀ c ∈ rest.head?, l.kind.mayPrecede c) →
    Token.extent first (more ++ rest) = (more, rest)

/-- Characters of a class are taken up to the first other one. -/
theorem span_append {p : Char → Bool} {more rest : List Char} (all : ∀ c ∈ more, p c)
    (ends : ∀ c ∈ rest.head?, p c = false)
    : (more ++ rest).takeWhile p = more ∧ (more ++ rest).dropWhile p = rest := by
  rw [List.takeWhile_append_of_pos all, List.dropWhile_append_of_pos all]
  cases rest with
  | nil => simp
  | cons c rest => simp [ends c rfl]

section

variable {c : Char}

theorem isWordChar_of_isWordStart (starts : Token.isWordStart c) : Token.isWordChar c := by
  simp only [Token.isWordStart, Token.isWordChar, Char.isAlphanum, Bool.or_eq_true] at starts ⊢
  tauto

theorem isWordChar_of_isDigit (digit : c.isDigit) : Token.isWordChar c := by
  simp [Token.isWordChar, Char.isAlphanum, digit]

/-- Letters are those of the ASCII part. -/
theorem isAlpha_iff_toNat
    : c.isAlpha ↔ (65 ≤ c.toNat ∧ c.toNat ≤ 90) ∨ (97 ≤ c.toNat ∧ c.toNat ≤ 122) := by
  show (decide (c.val ≥ 'A'.val ∧ c.val ≤ 'Z'.val)
    || (decide (c.val ≥ 'a'.val) && decide (c.val ≤ 'z'.val))) = true ↔ _
  simp only [Bool.or_eq_true, Bool.and_eq_true, decide_eq_true_eq, ge_iff_le,
    UInt32.le_iff_toNat_le]
  rfl

/-- No word starts with a digit. -/
theorem isDigit_of_isWordStart (starts : Token.isWordStart c) : c.isDigit = false := by
  simp only [Token.isWordStart, Bool.or_eq_true, isAlpha_iff_toNat, beq_iff_eq] at starts
  rcases starts with letter | rfl
  · rw [Bool.eq_false_iff, ne_eq, Char.isDigit_iff_toNat]
    rintro ⟨-, high⟩
    have high : c.toNat ≤ 57 := high
    omega
  · decide

/-- No word has a blank in it. -/
theorem isBlank_of_isWordChar (inside : Token.isWordChar c) : Text.isBlank c = false := by
  simp only [Token.isWordChar, Char.isAlphanum, Bool.or_eq_true, isAlpha_iff_toNat,
    Char.isDigit_iff_toNat, beq_iff_eq] at inside
  have range : 48 ≤ c.toNat ∧ c.toNat ≤ 122 := by
    rcases inside with (letter | ⟨low, high⟩) | rfl
    · omega
    · exact ⟨low, Nat.le_trans high (by decide)⟩
    · decide
  simp only [Text.isBlank, Text.blankRanges, List.any_cons, List.any_nil, Bool.or_false,
    Bool.or_eq_false_iff, Bool.and_eq_false_iff, decide_eq_false_iff_not]
  omega

end

/-- A word. -/
theorem scans_word {l : Lexeme} {first : Char} {more : List Char}
    (text : l.text.toList = first :: more) (starts : Token.isWordStart first)
    (all : ∀ c ∈ more, Token.isWordChar c) (kind : Kind.ofWord l.text = l.kind)
    (noNumber : l.kind ≠ .constant) (value : l.value = 0)
    : l.Scans first more where
  text := text
  starts := isBlank_of_isWordChar (isWordChar_of_isWordStart starts)
  kind := by
    have same : String.ofList (first :: more) = l.text := by rw [← text, String.ofList_toList]
    simp [Token.kindOf?, isDigit_of_isWordStart starts, starts, same, kind]
  value := by simp [Token.valueOf, noNumber, value]
  extent := by
    intro rest ends
    have stops : ∀ c ∈ rest.head?, Token.isWordChar c = false := by
      intro c next
      simpa [← kind, Kind.mayPrecede_ofWord] using ends c next
    obtain ⟨taken, left⟩ := span_append all stops
    simp [Token.extent, isDigit_of_isWordStart starts, starts, taken, left]

theorem scans_name {text : String} (own : IsName text)
    : ∃ first more, (name text).Scans first more := by
  obtain ⟨⟨first, more, same, starts, all⟩, free⟩ := own
  exact ⟨first, more, scans_word same starts all (Kind.ofWord_eq_identifier.mpr free) nofun rfl⟩

/-- The signed value of a natural number is the one that agrees with it modulo 2^64. -/
theorem ofNat_eq_iff {n : Nat} {value : Int64}
    : Int64.ofNat n = value ↔ value.toInt ≡ n [ZMOD 2 ^ 64] := by
  rw [← Int64.ofInt_eq_ofNat, Int64.ofInt_eq_iff_bmod_eq_toInt]
  constructor
  · intro same
    rw [← same]
    exact Int.bmod_emod
  · intro congruent
    rw [← Int64.toInt_bmod value, ← Int.emod_bmod value.toInt, ← Int.emod_bmod n]
    exact congrArg (Int.bmod · _) congruent.symm

/-- To wrap around after every digit and once at the end is the same. -/
theorem foldl_addDigit (cs : List Char) (n : Nat)
    : cs.foldl Token.addDigit (.ofNat n) = .ofNat (Nat.ofDigitChars 10 cs n) := by
  induction cs generalizing n with
  | nil => rfl
  | cons c cs ih =>
      have step : Token.addDigit (.ofNat n) c = .ofNat (10 * n + (c.toNat - '0'.toNat)) := by
        rw [Token.addDigit, Int64.ofNat_add, Int64.ofNat_mul, Int64.mul_comm]
        rfl
      rw [List.foldl_cons, step, ih, Nat.ofDigitChars_cons]

/-- The value of a number is the signed one that agrees with its digits modulo 2^64. -/
theorem valueOf_constant_eq_iff {text : List Char} {value : Int64}
    : Token.valueOf .constant text = value
      ↔ value.toInt ≡ Nat.ofDigitChars 10 text 0 [ZMOD 2 ^ 64] := by
  rw [← ofNat_eq_iff, ← foldl_addDigit text 0]
  rfl

/-- A run of digits. -/
theorem scans_digits {text : String} {value : Int64} (nonempty : text ≠ "")
    (all : ∀ c ∈ text.toList, c.isDigit)
    (same : value.toInt ≡ Nat.ofDigitChars 10 text.toList 0 [ZMOD 2 ^ 64])
    : ∃ first more, Scans ⟨.constant, text, value⟩ first more := by
  cases parts : text.toList with
  | nil => exact absurd (String.toList_eq_nil_iff.mp parts) nonempty
  | cons first more =>
      rw [parts] at all same
      obtain ⟨digit, others⟩ := List.forall_mem_cons.mp all
      refine ⟨first, more, parts, isBlank_of_isWordChar (isWordChar_of_isDigit digit), ?_, ?_, ?_⟩
      · simp [Token.kindOf?, digit]
      · exact valueOf_constant_eq_iff.mpr same
      · intro rest ends
        have stops : ∀ c ∈ rest.head?, c.isDigit = false := by
          intro c next
          have outside : Token.isWordChar c = false := by
            simpa only [Kind.mayPrecede_constant, Bool.not_eq_eq_eq_not, Bool.not_true] using
              ends c next
          by_contra inside
          rw [isWordChar_of_isDigit (by simpa using inside)] at outside
          cases outside
        obtain ⟨taken, left⟩ := span_append others stops
        simp [Token.extent, digit, taken, left]

/-- A number that is written as its value modulo 2^64. -/
theorem Lexical.number {value : Int64} : (number value).Lexical := by
  let n := (value.toInt % 2 ^ 64).toNat
  have text : (toString n).toList = Nat.toDigits 10 n := by
    rw [Nat.toString_eq_ofList_toDigits, String.toList_ofList]
  have nonempty : toString n ≠ "" := by
    intro empty
    rw [empty] at text
    exact Nat.toDigits_ne_nil text.symm
  refine .digits nonempty ?_ ?_
  · rw [text]
    exact fun c member => Nat.isDigit_of_mem_toDigits (by decide) (by decide) member
  · rw [text, Nat.ofDigitChars_toDigits (by decide) (by decide),
      Int.toNat_of_nonneg (Int.emod_nonneg _ (by decide))]
    exact (Int.mod_modEq _ _).symm

/-- A character that starts neither word nor number is alone, unless an equals sign follows
that belongs to it.
-/
theorem extent_eq_nil {first : Char} {rest : List Char} (noDigit : first.isDigit = false)
    (noWord : Token.isWordStart first = false)
    (apart : Kind.ofCharEqual? first = none ∨ ∀ c ∈ rest.head?, c ≠ '=')
    : Token.extent first rest = ([], rest) := by
  simp only [Token.extent, noDigit, noWord, Bool.false_eq_true, ↓reduceIte]
  split
  · next pair =>
      rcases apart with none | other
      · rw [none] at pair
        cases pair
      · exact absurd rfl (other '=' rfl)
  · rfl

theorem scans_fixed {kind : Kind} (noName : kind ≠ .identifier) (noNumber : kind ≠ .constant)
    : ∃ first more, (fixed kind).Scans first more := by
  cases kind with
  | identifier => exact absurd rfl noName
  | constant => exact absurd rfl noNumber
  | type scalar =>
      cases scalar
      exact ⟨_, _, scans_word rfl (by decide) (List.all_eq_true.mp rfl) (by decide) nofun rfl⟩
  | ifWord | elseWord | whileWord | forWord | returnWord | sizeofWord =>
      exact ⟨_, _, scans_word rfl (by decide) (List.all_eq_true.mp rfl) (by decide) nofun rfl⟩
  | assign | less | greater =>
      refine ⟨_, _, rfl, by decide, by decide, by decide, ?_⟩
      intro rest ends
      exact extent_eq_nil rfl rfl (.inr fun c next => of_decide_eq_true (ends c next))
  | _ => exact ⟨_, _, rfl, by decide, by decide, by decide, fun _ _ => rfl⟩

/-- Every lexeme that can stand in a source text is scanned for what it is. -/
theorem Lexical.scans {l : Lexeme} (lexical : l.Lexical) : ∃ first more, l.Scans first more := by
  cases lexical with
  | name own => exact scans_name own
  | digits nonempty all same => exact scans_digits nonempty all same
  | fixed noName noNumber => exact scans_fixed noName noNumber

/-- Identifiers are names. -/
theorem Lexical.isName {l : Lexeme} (lexical : l.Lexical) (identifier : l.kind = .identifier)
    : IsName l.text := by
  cases lexical with
  | name own => exact own
  | digits => cases identifier
  | fixed noName => exact absurd identifier noName

/-- Numbers are runs of digits. -/
theorem Lexical.isDigit {l : Lexeme} (lexical : l.Lexical) (number : l.kind = .constant)
    : ∃ first more, l.text.toList = first :: more ∧ first.isDigit ∧ ∀ c ∈ more, c.isDigit := by
  cases lexical with
  | name => cases number
  | fixed _ noNumber => exact absurd number noNumber
  | @digits text _ nonempty all _ =>
      cases chars : text.toList with
      | nil => exact absurd (String.toList_eq_nil_iff.mp chars) nonempty
      | cons first more =>
          rw [chars] at all
          exact ⟨first, more, rfl, List.forall_mem_cons.mp all⟩

end Lexeme

/-- What is neither an equals sign nor part of a word may come after every lexeme. -/
theorem Kind.mayPrecede_of_apart {c : Char} (noEqual : c ≠ '=')
    (noWord : Token.isWordChar c = false) (kind : Kind)
    : kind.mayPrecede c := by
  have outside : (!(c.isAlphanum || c == '_')) = true := by
    rw [← Token.isWordChar, noWord]
    rfl
  cases kind with
  | assign | less | greater => exact decide_eq_true noEqual
  | identifier | constant | type | ifWord | elseWord | whileWord | forWord | returnWord
    | sizeofWord => exact outside
  | _ => rfl

/-- A blank may come after every lexeme. -/
theorem Kind.mayPrecede_of_isBlank {c : Char} (blank : Text.isBlank c) (kind : Kind)
    : kind.mayPrecede c := by
  have noEqual : c ≠ '=' := by
    rintro rfl
    cases blank
  have noWord : Token.isWordChar c = false := by
    by_contra inside
    rw [Lexeme.isBlank_of_isWordChar (by simpa using inside)] at blank
    cases blank
  exact mayPrecede_of_apart noEqual noWord kind

end SlotC
