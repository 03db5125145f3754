import Mathlib
import SlotC.Assembly.Render
import SlotC.Proofs.Source.Lexeme

/-! Listings read back from their text. A text falls into lines, a line into words, and the
first word of an instruction says what the others are, so a text is that of one listing only.
-/

-- The whole library is imported because no smaller part of it has `Int.toInt?_repr` and
-- `Nat.toNat?_repr`.

namespace SlotC

-----------------------------------------------------------------------------------------
-- Parts of texts
-----------------------------------------------------------------------------------------

namespace Text

/-- The parts of a text between the places where the character stands. -/
def parts (c : Char) (text : String) : List String :=
  (text.split c).toList.map String.Slice.copy

/-- The text without its last character. -/
def chop (text : String) : String :=
  String.ofList text.toList.dropLast

/-- Whether there is no blank in the text. -/
def isSolid (text : String) : Bool :=
  text.toList.all fun c => !isBlank c

variable {text : String} {c : Char}

theorem parts_intercalate {words : List String} (apart : ∀ w ∈ words, c ∉ w.toList)
    (some : words ≠ [])
    : parts c ((String.singleton c).intercalate words) = words := by
  have parted := String.toList_split_intercalate apart
  rwa [if_neg some] at parted

theorem parts_eq_singleton (apart : c ∉ text.toList) : parts c text = [text] := by
  have alone := parts_intercalate (List.forall_mem_singleton.mpr apart) (List.cons_ne_nil text [])
  rwa [String.intercalate_singleton] at alone

/-- A character of words that are put together stands between them or in one of them. -/
theorem mem_intercalate {d : Char} {words : List String}
    (inside : d ∈ ((String.singleton c).intercalate words).toList)
    : d = c ∨ ∃ w ∈ words, d ∈ w.toList := by
  induction words with
  | nil => cases inside
  | cons w words ih =>
      rcases words with _ | ⟨next, words⟩
      · rw [String.intercalate_singleton] at inside
        exact .inr ⟨w, List.mem_cons_self, inside⟩
      · rw [String.intercalate_cons_cons] at inside
        simp only [String.toList_append, String.toList_singleton, List.mem_append,
          List.mem_singleton] at inside
        rcases inside with (own | between) | later
        · exact .inr ⟨w, List.mem_cons_self, own⟩
        · exact .inl between
        · rcases ih later with between | ⟨v, among, own⟩
          · exact .inl between
          · exact .inr ⟨v, List.mem_cons_of_mem w among, own⟩

theorem chop_append (text : String) (c : Char) : chop (text ++ String.singleton c) = text := by
  simp [chop]

theorem chop_comma (text : String) : chop (text ++ ",") = text :=
  chop_append text ','

theorem isSolid_append (first second : String)
    : isSolid (first ++ second) = (isSolid first && isSolid second) := by
  rw [isSolid, String.toList_append, List.all_append]
  rfl

theorem not_mem_of_isSolid (solid : isSolid text) (blank : isBlank c) : c ∉ text.toList := by
  intro inside
  have own := List.all_eq_true.mp solid c inside
  rw [blank] at own
  cases own

/-- Numbers are written with digits, and a minus sign if they are negative. -/
theorem mem_toString {value : Int} {c : Char} (inside : c ∈ (toString value).toList)
    : c.isDigit ∨ c = '-' := by
  have digits {n : Nat} (inside : c ∈ (toString n).toList) : c.isDigit := by
    rw [Nat.toString_eq_ofList_toDigits, String.toList_ofList] at inside
    exact Nat.isDigit_of_mem_toDigits (by decide) (by decide) inside
  cases value with
  | ofNat n => exact .inl (digits inside)
  | negSucc n =>
      have written : (toString (Int.negSucc n)).toList = '-' :: (toString (n + 1)).toList := by
        show ("-" ++ toString (n + 1)).toList = _
        rw [String.toList_append]
        rfl
      rw [written] at inside
      rcases List.mem_cons.mp inside with same | inside
      · exact .inr same
      · exact .inl (digits inside)

theorem isSolid_toString (value : Int) : isSolid (toString value) := by
  refine List.all_eq_true.mpr fun c inside => ?_
  rcases mem_toString inside with digit | rfl
  · rw [Lexeme.isBlank_of_isWordChar (Lexeme.isWordChar_of_isDigit digit)]
    rfl
  · rfl

end Text

/-- A letter or underscore, with letters, digits and underscores after it. -/
def IsWord (text : String) : Prop :=
  ∃ first more, text.toList = first :: more ∧ Token.isWordStart first
    ∧ ∀ c ∈ more, Token.isWordChar c

theorem IsWord.all {text : String} (word : IsWord text)
    : ∀ c ∈ text.toList, Token.isWordChar c := by
  obtain ⟨first, more, same, starts, others⟩ := word
  rw [same]
  exact List.forall_mem_cons.mpr ⟨Lexeme.isWordChar_of_isWordStart starts, others⟩

theorem IsWord.isSolid {text : String} (word : IsWord text) : Text.isSolid text := by
  refine List.all_eq_true.mpr fun c inside => ?_
  rw [Lexeme.isBlank_of_isWordChar (word.all c inside)]
  rfl

-----------------------------------------------------------------------------------------
-- Reading
-----------------------------------------------------------------------------------------

/-- The register with the name. -/
def Register.ofText? (text : String) : Option Register :=
  [Register.rax, .rdi, .rsi, .rdx, .rcx, .r8, .r9, .rbp, .rsp, .al].find? fun r =>
    r.render == text

/-- The relation with the name, after the letters that come before it. -/
def Condition.ofText? (before text : String) : Option Condition :=
  [Condition.e, .ne, .l, .le].find? fun condition => before ++ condition.render == text

/-- The arithmetic instruction with the name. -/
def Arith.ofText? (text : String) : Option Arith :=
  [Arith.add, .sub, .imul].find? fun op => op.render == text

/-- The operand with the text. -/
def Operand.ofText? (text : String) : Option Operand :=
  match text.toList with
  | '[' :: inner =>
    match "rbp-".toList.isPrefixOf? inner.dropLast with
    | some offset => (String.ofList offset).toInt?.map .stack
    | none => (Register.ofText? (String.ofList inner.dropLast)).map .mem
  | _ =>
    match Register.ofText? text with
    | some register => some (.reg register)
    | none => text.toInt?.map .imm

/-- The label with the text. A numbered label has dots between its parts. -/
def Label.ofText? (text : String) : Option Label :=
  match Text.parts '.' text with
  | [_, _, kind, id] =>
    match kind with
    | "else" => id.toNat?.map .otherwise
    | "end" => id.toNat?.map .finish
    | "begin" => id.toNat?.map .start
    | _ => none
  | _ => some (.symbol text)

/-- The instruction with the name and one operand. -/
def Instr.withOperand? (name operand : String) : Option Instr :=
  match name with
  | "push" => (Operand.ofText? operand).map .push
  | "pop" => (Register.ofText? operand).map .pop
  | "idiv" => (Operand.ofText? operand).map .idiv
  | "jmp" => (Label.ofText? operand).map .jmp
  | "call" => some (.call operand)
  | _ =>
    match Condition.ofText? "set" name, Condition.ofText? "j" name with
    | some condition, _ => (Register.ofText? operand).map (.set condition)
    | none, some condition => (Label.ofText? operand).map (.jmpIf condition)
    | none, none => none

/-- The instruction with the name and two operands. -/
def Instr.withOperands? (name target source : String) : Option Instr :=
  match name with
  | "movzb" => return .movzb (← Register.ofText? target) (← Register.ofText? source)
  | "mov" => return .mov (← Operand.ofText? target) (← Operand.ofText? source)
  | "cmp" => return .cmp (← Operand.ofText? target) (← Operand.ofText? source)
  | _ =>
    return .arith (← Arith.ofText? name) (← Operand.ofText? target) (← Operand.ofText? source)

/-- The instruction with the words. The first of two operands has a comma after it. -/
def Instr.ofWords? : List String → Option Instr
  | [name] =>
    match name with
    | "cqo" => some .cqo
    | "ret" => some .ret
    | _ => none
  | [name, operand] => withOperand? name operand
  | [name, target, source] => withOperands? name (Text.chop target) source
  | _ => none

/-- The line with the words. The two blanks before an instruction leave two words without
letters.
-/
def Line.ofWords? : List String → Option Line
  | [] => none
  | [word] => (Label.ofText? (Text.chop word)).map .label
  | [first, name] =>
    match first with
    | ".globl" => some (.directive (.globl name))
    | ".intel_syntax" => some (.directive .intel)
    | _ => none
  | _ :: _ :: words => (Instr.ofWords? words).map .instr

/-- The listing with the text. -/
def Listing.ofText? (text : String) : Option Listing :=
  (Text.parts '\n' text).dropLast.mapM fun line => Line.ofWords? (Text.parts ' ' line)

-----------------------------------------------------------------------------------------
-- Words of lines
-----------------------------------------------------------------------------------------

/-- The words of an instruction. -/
def Instr.words : Instr → List String
  | .push operand => ["push", operand.render]
  | .pop register => ["pop", register.render]
  | .mov target source => ["mov", target.render ++ ",", source.render]
  | .movzb target source => ["movzb", target.render ++ ",", source.render]
  | .arith op target source => [op.render, target.render ++ ",", source.render]
  | .cqo => ["cqo"]
  | .idiv divisor => ["idiv", divisor.render]
  | .cmp left right => ["cmp", left.render ++ ",", right.render]
  | .set condition register => ["set" ++ condition.render, register.render]
  | .jmp l => ["jmp", l.render]
  | .jmpIf condition l => ["j" ++ condition.render, l.render]
  | .call name => ["call", name]
  | .ret => ["ret"]

/-- The words of a line. -/
def Line.words : Line → List String
  | .directive .intel => [".intel_syntax", "noprefix"]
  | .directive (.globl name) => [".globl", name]
  | .label l => [l.render ++ ":"]
  | .instr i => "" :: "" :: i.words

theorem Instr.words_ne_nil (i : Instr) : i.words ≠ [] := by
  cases i <;> exact List.cons_ne_nil _ _

theorem Line.words_ne_nil (line : Line) : line.words ≠ [] := by
  rcases line with (_ | name) | l | i <;> exact List.cons_ne_nil _ _

theorem Instr.render_eq (i : Instr) : i.render = " ".intercalate i.words := by
  cases i <;> simp [Instr.render, Instr.words, String.intercalate_cons_cons, String.append_assoc]

theorem Line.render_eq (line : Line) : line.render = " ".intercalate line.words := by
  rcases line with (_ | name) | l | i
  · rfl
  · rfl
  · rw [Line.words, String.intercalate_singleton]
    rfl
  · rw [Line.words, String.intercalate_cons_cons, String.intercalate_cons_of_ne_nil i.words_ne_nil,
      ← Instr.render_eq, ← String.append_assoc]
    rfl

/-- A listing is its lines with an end after each, also after the last. -/
theorem Listing.render_eq (listing : Listing)
    : listing.render = "\n".intercalate (listing.map Line.render ++ [""]) := by
  induction listing with
  | nil => rfl
  | cons line listing ih =>
      have more : listing.map Line.render ++ [""] ≠ [] := by simp
      rw [List.map_cons, List.cons_append, String.intercalate_cons_of_ne_nil more, ← ih]
      simp [Listing.render]

-----------------------------------------------------------------------------------------
-- Names
-----------------------------------------------------------------------------------------

/-- The name in the label, if it has one, is a word. -/
def Label.Named : Label → Prop
  | .symbol name => IsWord name
  | .otherwise _ | .finish _ | .start _ => True

/-- The names in the instruction are words. -/
def Instr.Named : Instr → Prop
  | .jmp l | .jmpIf _ l => l.Named
  | .call name => IsWord name
  | _ => True

/-- The names in the line are words. -/
def Line.Named : Line → Prop
  | .directive .intel => True
  | .directive (.globl name) => IsWord name
  | .label l => l.Named
  | .instr i => i.Named

/-- The names in the listing are words. -/
def Listing.Named (listing : Listing) : Prop :=
  ∀ line ∈ listing, line.Named

-----------------------------------------------------------------------------------------
-- No blanks inside words
-----------------------------------------------------------------------------------------

theorem Register.isSolid_render (r : Register) : Text.isSolid r.render := by
  cases r <;> rfl

theorem Operand.isSolid_render (operand : Operand) : Text.isSolid operand.render := by
  cases operand with
  | imm value => exact Text.isSolid_toString value
  | reg r => exact r.isSolid_render
  | mem r =>
      simp only [Operand.render, Text.isSolid_append, r.isSolid_render]
      rfl
  | stack offset =>
      simp only [Operand.render, Text.isSolid_append, Text.isSolid_toString offset]
      rfl

theorem Label.isSolid_render {l : Label} (named : l.Named) : Text.isSolid l.render := by
  have number (id : Nat) : Text.isSolid (toString id) := Text.isSolid_toString id
  cases l with
  | symbol name => exact named.isSolid
  | otherwise id | finish id | start id =>
      simp only [Label.render, Text.isSolid_append, number]
      rfl

theorem Instr.isSolid_words {i : Instr} (named : i.Named) : ∀ w ∈ i.words, Text.isSolid w := by
  cases i with
  | push operand | idiv operand =>
      simp +decide [Instr.words, operand.isSolid_render]
  | pop register => simp +decide [Instr.words, register.isSolid_render]
  | mov target source | cmp target source =>
      simp +decide [Instr.words, Text.isSolid_append, Operand.isSolid_render]
  | movzb target source =>
      simp +decide [Instr.words, Text.isSolid_append, Register.isSolid_render]
  | arith op target source =>
      cases op <;>
        simp +decide [Instr.words, Arith.render, Text.isSolid_append, Operand.isSolid_render]
  | set condition register =>
      cases condition <;>
        simp +decide [Instr.words, Condition.render, register.isSolid_render]
  | jmp l => simp +decide [Instr.words, Label.isSolid_render named]
  | jmpIf condition l =>
      cases condition <;> simp +decide [Instr.words, Condition.render, Label.isSolid_render named]
  | call name => simp +decide [Instr.words, named.isSolid]
  | cqo | ret => decide

theorem Line.isSolid_words {line : Line} (named : line.Named)
    : ∀ w ∈ line.words, Text.isSolid w := by
  rcases line with (_ | name) | l | i
  · decide
  · simp +decide [Line.words, named.isSolid]
  · simp +decide [Line.words, Text.isSolid_append, Label.isSolid_render named]
  · exact List.forall_mem_cons.mpr ⟨rfl, List.forall_mem_cons.mpr ⟨rfl, Instr.isSolid_words named⟩⟩

-----------------------------------------------------------------------------------------
-- Reading what was written
-----------------------------------------------------------------------------------------

theorem Register.ofText?_render (r : Register) : ofText? r.render = some r := by
  cases r <;> rfl

/-- No register is named like a number. -/
theorem Register.ofText?_toString (value : Int) : ofText? (toString value) = none := by
  refine List.find?_eq_none.mpr fun r _ same => ?_
  have letter : r.render.toList.any fun c => !c.isDigit && c ≠ '-' := by
    cases r <;> rfl
  obtain ⟨c, inside, other⟩ := List.any_eq_true.mp letter
  rw [beq_iff_eq.mp same] at inside
  rcases Text.mem_toString inside with digit | sign
  · simp [digit] at other
  · simp [sign] at other

theorem Operand.ofText?_render (operand : Operand) : ofText? operand.render = some operand := by
  cases operand with
  | imm value =>
      have number : (toString value).toInt? = some value := Int.toInt?_repr value
      rw [Operand.render, Operand.ofText?]
      split
      · next inner written =>
          have bracket : '[' ∈ (toString value).toList := by rw [written]; simp
          rcases Text.mem_toString bracket with digit | same
          · cases digit
          · cases same
      · rw [Register.ofText?_toString, number]
        rfl
  | reg r => cases r <;> rfl
  | mem r => cases r <;> rfl
  | stack offset =>
      have number : (toString offset).toInt? = some offset := Int.toInt?_repr offset
      have written : (Operand.stack offset).render.toList
          = '[' :: ("rbp-".toList ++ (toString offset).toList ++ [']']) := by
        simp [Operand.render]
      rw [Operand.ofText?, written]
      simp only [List.dropLast_concat]
      show (String.ofList (toString offset).toList).toInt?.map Operand.stack = _
      rw [String.ofList_toList, number]
      rfl

/-- A numbered label falls into parts at its dots. -/
theorem Label.parts_numbered (before kind : String) (start : before = ".L." ++ kind ++ ".")
    (plain : '.' ∉ kind.toList) (id : Nat)
    : Text.parts '.' (before ++ toString id) = ["", "L", kind, toString id] := by
  have digits : '.' ∉ (toString (id : Int)).toList := by
    intro inside
    rcases Text.mem_toString inside with digit | same
    · cases digit
    · cases same
  have apart : ∀ w ∈ ["", "L", kind, toString id], '.' ∉ w.toList := by
    have others : ∀ w ∈ ["", "L"], '.' ∉ w.toList := by decide
    intro w inside
    rcases List.mem_append.mp (show w ∈ ["", "L"] ++ [kind, toString id] from inside) with
      fixed | own
    · exact others w fixed
    · rcases List.mem_pair.mp own with rfl | rfl
      · exact plain
      · exact digits
  have written : before ++ toString id
      = (String.singleton '.').intercalate ["", "L", kind, toString id] := by
    rw [start, String.intercalate_cons_cons, String.intercalate_cons_cons,
      String.intercalate_cons_cons, String.intercalate_singleton, ← String.append_assoc,
      ← String.append_assoc, ← String.append_assoc]
    rfl
  rw [written, Text.parts_intercalate apart (List.cons_ne_nil _ _)]

theorem Label.ofText?_render {l : Label} (named : l.Named) : ofText? l.render = some l := by
  have number (id : Nat) : (toString id).toNat? = some id := Nat.toNat?_repr id
  cases l with
  | symbol name =>
      have apart : '.' ∉ name.toList := by
        intro inside
        cases named.all '.' inside
      rw [Label.render, Label.ofText?, Text.parts_eq_singleton apart]
  | otherwise id =>
      have parted := parts_numbered ".L.else." "else" rfl (by decide) id
      simp only [Label.ofText?, Label.render, parted, number, Option.map_some]
  | finish id =>
      have parted := parts_numbered ".L.end." "end" rfl (by decide) id
      simp only [Label.ofText?, Label.render, parted, number, Option.map_some]
  | start id =>
      have parted := parts_numbered ".L.begin." "begin" rfl (by decide) id
      simp only [Label.ofText?, Label.render, parted, number, Option.map_some]

theorem Instr.ofWords?_words {i : Instr} (named : i.Named) : ofWords? i.words = some i := by
  cases i with
  | push operand | idiv operand =>
      show (Operand.ofText? operand.render).map _ = _
      rw [operand.ofText?_render]
      rfl
  | pop register =>
      show (Register.ofText? register.render).map _ = _
      rw [register.ofText?_render]
      rfl
  | mov target source | cmp target source =>
      simp only [Instr.words, Instr.ofWords?, Instr.withOperands?, Text.chop_comma,
        Operand.ofText?_render]
      rfl
  | movzb target source =>
      simp only [Instr.words, Instr.ofWords?, Instr.withOperands?, Text.chop_comma,
        Register.ofText?_render]
      rfl
  | arith op target source =>
      cases op
      all_goals
        simp only [Instr.words, Arith.render, Instr.ofWords?, Instr.withOperands?, Text.chop_comma,
          Operand.ofText?_render]
        rfl
  | set condition register =>
      cases condition
      all_goals
        show (Register.ofText? register.render).map _ = _
        rw [register.ofText?_render]
        rfl
  | jmp l =>
      show (Label.ofText? l.render).map _ = _
      rw [Label.ofText?_render named]
      rfl
  | jmpIf condition l =>
      cases condition
      all_goals
        show (Label.ofText? l.render).map _ = _
        rw [Label.ofText?_render named]
        rfl
  | call name => rfl
  | cqo | ret => rfl

theorem Line.ofWords?_words {line : Line} (named : line.Named)
    : ofWords? line.words = some line := by
  rcases line with (_ | name) | l | i
  · rfl
  · rfl
  · show (Label.ofText? (Text.chop (l.render ++ String.singleton ':'))).map _ = _
    rw [Text.chop_append, Label.ofText?_render named]
    rfl
  · have read := Instr.ofWords?_words named
    obtain ⟨name, operands, same⟩ := List.exists_cons_of_ne_nil i.words_ne_nil
    rw [Line.words, same]
    show (Instr.ofWords? (name :: operands)).map _ = _
    rw [← same, read]
    rfl

/-- The words of a line are what its text falls into at the blanks. -/
theorem Line.parts_render {line : Line} (named : line.Named)
    : Text.parts ' ' line.render = line.words := by
  rw [line.render_eq]
  exact Text.parts_intercalate
    (fun w inside => Text.not_mem_of_isSolid (line.isSolid_words named w inside) rfl)
    line.words_ne_nil

theorem Line.not_mem_render {line : Line} (named : line.Named) : '\n' ∉ line.render.toList := by
  rw [line.render_eq]
  intro inside
  rcases Text.mem_intercalate (c := ' ') inside with same | ⟨w, among, own⟩
  · cases same
  · exact Text.not_mem_of_isSolid (line.isSolid_words named w among) rfl own

/-- The lines of a listing are what its text falls into at the line ends. -/
theorem Listing.parts_render {listing : Listing} (named : listing.Named)
    : Text.parts '\n' listing.render = listing.map Line.render ++ [""] := by
  have apart : ∀ text ∈ listing.map Line.render ++ [""], '\n' ∉ text.toList := by
    intro text inside
    rcases List.mem_append.mp inside with written | last
    · obtain ⟨line, among, rfl⟩ := List.mem_map.mp written
      exact Line.not_mem_render (named line among)
    · rw [List.mem_singleton.mp last]
      exact List.not_mem_nil
  rw [listing.render_eq]
  exact Text.parts_intercalate apart (by simp)

theorem Listing.ofText?_render {listing : Listing} (named : listing.Named)
    : ofText? listing.render = some listing := by
  rw [ofText?, parts_render named, List.dropLast_concat]
  induction listing with
  | nil => rfl
  | cons line listing ih =>
      have ⟨first, others⟩ := List.forall_mem_cons.mp named
      rw [List.map_cons, List.mapM_cons, Line.parts_render first, Line.ofWords?_words first,
        ih others]
      rfl

/-- Reading undoes writing, so no other listing has the same text. -/
theorem listing_render_injective (listing : Listing) (named : listing.Named)
    : Listing.ofText? listing.render = some listing
      ∧ ∀ other : Listing, other.Named → other.render = listing.render → other = listing := by
  have read := Listing.ofText?_render named
  refine ⟨read, fun other named' same => ?_⟩
  have read' := Listing.ofText?_render named'
  rw [same, read] at read'
  exact (Option.some.inj read').symm

/-- Lines of each shape, with names that look like registers and instructions. -/
def Specimen.lines : Listing :=
  [.directive .intel, .directive (.globl "rax"), .label (.symbol "rax"),
    .instr (.mov (.stack (-8)) (.imm (-9223372036854775808))), .instr (.cmp (.mem .rax) (.imm 0)),
    .instr (.set .le .al), .instr (.jmpIf .le (.finish 3)), .instr (.jmp (.symbol "_jle9")),
    .instr (.call "noprefix"), .label (.finish 3), .instr .ret]

theorem listing_render_injective_specimen
    : Listing.Named Specimen.lines
      ∧ Listing.ofText? (Listing.render Specimen.lines) = some Specimen.lines
      ∧ ∀ other : Listing, other.Named → other.render = Listing.render Specimen.lines
        → other = Specimen.lines := by
  have rax : IsWord "rax" := ⟨'r', ['a', 'x'], rfl, rfl, List.all_eq_true.mp rfl⟩
  have jle : IsWord "_jle9" := ⟨'_', ['j', 'l', 'e', '9'], rfl, rfl, List.all_eq_true.mp rfl⟩
  have mode : IsWord "noprefix" :=
    ⟨'n', ['o', 'p', 'r', 'e', 'f', 'i', 'x'], rfl, rfl, List.all_eq_true.mp rfl⟩
  have named : Listing.Named Specimen.lines := by
    simp [Listing.Named, Specimen.lines, Line.Named, Instr.Named, Label.Named, rax, jle, mode]
  exact ⟨named, listing_render_injective Specimen.lines named⟩

end SlotC
