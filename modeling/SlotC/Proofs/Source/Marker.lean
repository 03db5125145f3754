import Mathlib.Data.List.TakeWhile
import SlotC.Proofs.Source.Division

/-! The marker of a scan error shows the line that the error is in, with a caret below the character
at its place. Places are counted in bytes and columns in characters, so the marker is compared with
one that is cut out of the text by bytes, where a cut fails if it is not between two characters.
-/

namespace SlotC

namespace Text

/-- The bytes of a text from `start` up to `stop`. There are none unless both places are in the
text, between two characters and in order.
-/
def slice? (text : String) (start stop : Nat) : Option String := do
  let first ← text.pos? ⟨start⟩
  let last ← text.pos? ⟨stop⟩
  let slice ← text.slice? first last
  return slice.copy

/-- The places of the newlines among characters of which the first is at byte `pos`. -/
def breaks (pos : Nat) : List Char → List Nat
  | [] => []
  | c :: cs =>
    if c = '\n' then pos :: breaks (pos + c.utf8Size) cs else breaks (pos + c.utf8Size) cs

/-- The characters of a text around a place: `left` and `right` of it the line that it is in,
`before` and `after` the lines around that.
-/
structure Around (cs : List Char) (pos : Nat) (before left right after : List Char) : Prop where
  parts : cs = (before ++ left) ++ (right ++ after)
  place : pos = Token.byteLength (before ++ left)
  starts : before = [] ∨ ∃ lines, before = lines ++ ['\n']
  ends : after = [] ∨ ∃ lines, after = '\n' :: lines
  plainLeft : '\n' ∉ left
  plainRight : '\n' ∉ right

end Text

/-- The marker of an error, cut out of the source text by bytes. The line starts behind the last
newline before the place of the error and ends before the first newline from there on.
-/
def ScanError.cutMarker? (error : ScanError) : Option String := do
  let before ← Text.slice? error.source 0 error.pos
  let lineStart := ((Text.breaks 0 before.toList).getLast?.map (· + 1)).getD 0
  let after ← Text.slice? error.source error.pos error.source.utf8ByteSize
  let lineEnd := ((Text.breaks 0 after.toList).head?.map (error.pos + ·)).getD
    error.source.utf8ByteSize
  let left ← Text.slice? error.source lineStart error.pos
  let line ← Text.slice? error.source lineStart lineEnd
  return line ++ "\n" ++ String.ofList (List.replicate left.length ' ') ++ "^"

namespace Text

open Token

-----------------------------------------------------------------------------------------
-- Slices
-----------------------------------------------------------------------------------------

theorem pos?_eq_some {text : String} {place : String.Pos.Raw} {p : text.Pos}
    : text.pos? place = some p ↔ p.offset = place := by
  unfold String.pos? String.Slice.pos?
  constructor
  · intro found
    split at found
    · cases found
      rfl
    · cases found
  · rintro rfl
    have valid := p.isValid
    simp only [String.Pos.Raw.isValidForSlice_toSlice_iff, valid,
      String.Pos.Raw.isValidForSlice_eq_true_iff, ↓reduceDIte, Option.map_some]
    rfl

/-- A slice is what stands between its two places. -/
theorem slice?_eq_some {text part : String} {start stop : Nat}
    : slice? text start stop = some part
      ↔ ∃ before after, text = before ++ part ++ after ∧ start = before.utf8ByteSize
          ∧ stop = before.utf8ByteSize + part.utf8ByteSize := by
  unfold slice?
  simp only [bind, pure, Option.bind_eq_some_iff, pos?_eq_some, Option.some.injEq]
  constructor
  · rintro ⟨first, atStart, last, atStop, slice, found, rfl⟩
    unfold String.slice? at found
    split at found
    · next inOrder =>
        cases found
        obtain ⟨before, after, opening, closing⟩ :=
          String.copy_slice_eq_iff_splits.mp ⟨inOrder, rfl⟩
        have atStart' := opening.offset_eq_rawEndPos
        have atStop' := closing.offset_eq_rawEndPos
        rw [atStart] at atStart'
        rw [atStop] at atStop'
        refine ⟨before, after, closing.eq_append, congrArg String.Pos.Raw.byteIdx atStart', ?_⟩
        simpa using congrArg String.Pos.Raw.byteIdx atStop'
    · cases found
  · rintro ⟨before, after, rfl, rfl, rfl⟩
    have regrouped : before ++ part ++ after = before ++ (part ++ after) := String.append_assoc
    have opening := String.Pos.splits_ofEqAppend regrouped
    have closing := String.Pos.splits_ofEqAppend (Eq.refl (before ++ part ++ after))
    obtain ⟨inOrder, same⟩ := String.copy_slice_eq_iff_splits.mpr ⟨before, after, opening, closing⟩
    refine ⟨_, opening.offset_eq_rawEndPos, _, ?_, _, dif_pos inOrder, same⟩
    rw [closing.offset_eq_rawEndPos]
    simp [String.Pos.Raw.ext_iff]

/-- Characters between others are the slice behind the first and before the last of them. -/
theorem slice?_ofList (before cs after : List Char)
    : slice? (String.ofList (before ++ cs ++ after)) (byteLength before)
        (byteLength (before ++ cs))
      = some (String.ofList cs) := by
  refine slice?_eq_some.mpr
    ⟨String.ofList before, String.ofList after, ?_, byteLength_eq before, ?_⟩
  · rw [String.ofList_append, String.ofList_append]
  · rw [byteLength_append, byteLength_eq, byteLength_eq]

-----------------------------------------------------------------------------------------
-- Newlines
-----------------------------------------------------------------------------------------

theorem breaks_append (pos : Nat) (cs cs' : List Char)
    : breaks pos (cs ++ cs') = breaks pos cs ++ breaks (pos + byteLength cs) cs' := by
  induction cs generalizing pos with
  | nil => rfl
  | cons c cs ih =>
      have length : pos + byteLength (c :: cs) = pos + c.utf8Size + byteLength cs :=
        (Nat.add_assoc ..).symm
      rw [length, List.cons_append, breaks, breaks, ih]
      split <;> rfl

theorem breaks_eq_nil {cs : List Char} (plain : '\n' ∉ cs) (pos : Nat) : breaks pos cs = [] := by
  induction cs generalizing pos with
  | nil => rfl
  | cons c cs ih =>
      rw [List.mem_cons, not_or] at plain
      rw [breaks, if_neg (Ne.symm plain.1)]
      exact ih plain.2 _

/-- The characters up to the first newline and those from it on. -/
theorem exists_firstLine (cs : List Char)
    : ∃ line rest, cs = line ++ rest ∧ '\n' ∉ line
        ∧ (rest = [] ∨ ∃ lines, rest = '\n' :: lines) := by
  refine ⟨cs.takeWhile (· != '\n'), cs.dropWhile (· != '\n'),
    List.takeWhile_append_dropWhile.symm, ?_, ?_⟩
  · intro member
    simpa using List.mem_takeWhile_imp member
  · cases rest : cs.dropWhile (· != '\n') with
    | nil => exact .inl rfl
    | cons c lines =>
        have next : c ∈ (cs.dropWhile (· != '\n')).head? := by
          rw [rest]
          rfl
        have stops := eq_false_of_mem_head? next
        exact .inr ⟨lines, by simpa using stops⟩

/-- The characters up to the first newline are those before any of them. -/
theorem takeWhile_line {line rest : List Char} (plain : '\n' ∉ line)
    (ends : rest = [] ∨ ∃ lines, rest = '\n' :: lines)
    : (line ++ rest).takeWhile (· != '\n') = line := by
  have inLine : ∀ c ∈ line, (c != '\n') = true := by
    intro c member
    exact bne_iff_ne.mpr fun same => plain (same ▸ member)
  rw [List.takeWhile_append_of_pos inLine]
  rcases ends with rfl | ⟨lines, rfl⟩
  · simp
  · simp

namespace Around

variable {cs before left right after : List Char} {pos : Nat}

/-- Every place between two characters is in a line. -/
theorem exists_of_isValid {text : String} (boundary : String.Pos.Raw.IsValid text ⟨pos⟩)
    : ∃ before left right after, Around text.toList pos before left right after := by
  obtain ⟨front, back, rfl, place⟩ := String.Pos.Raw.isValid_iff_exists_append.mp boundary
  obtain ⟨left, before, parts, plainLeft, starts⟩ := exists_firstLine front.toList.reverse
  obtain ⟨right, after, parts', plainRight, ends⟩ := exists_firstLine back.toList
  -- The line to the left is found from the place backwards, so its parts are reversed.
  have parts : front.toList = before.reverse ++ left.reverse := by
    rw [← List.reverse_append, ← parts, List.reverse_reverse]
  refine ⟨before.reverse, left.reverse, right, after, ?_, ?_, ?_, ends, ?_, plainRight⟩
  · rw [String.toList_append, parts, parts']
  · rw [← parts, byteLength_eq, String.ofList_toList]
    exact congrArg String.Pos.Raw.byteIdx place
  · rcases starts with rfl | ⟨lines, rfl⟩
    · exact .inl rfl
    · exact .inr ⟨lines.reverse, by rw [List.reverse_cons]⟩
  · rwa [List.mem_reverse]

/-- The line starts behind the last newline that stands before the place. -/
theorem lineStart (h : Around cs pos before left right after)
    : ((breaks 0 (before ++ left)).getLast?.map (· + 1)).getD 0 = byteLength before := by
  rw [breaks_append, breaks_eq_nil h.plainLeft, List.append_nil]
  rcases h.starts with rfl | ⟨lines, rfl⟩
  · rfl
  · have newline : breaks (0 + byteLength lines) ['\n'] = [byteLength lines] := by
      simp [breaks]
    rw [breaks_append, newline, List.getLast?_append, byteLength_append]
    rfl

/-- The line ends before the first newline that stands at the place or behind it. -/
theorem lineEnd (h : Around cs pos before left right after)
    : ((breaks 0 (right ++ after)).head?.map (pos + ·)).getD (byteLength cs)
      = byteLength (before ++ (left ++ right)) := by
  have length : byteLength (before ++ (left ++ right)) = pos + byteLength right := by
    rw [h.place, ← byteLength_append, List.append_assoc]
  rw [breaks_append, breaks_eq_nil h.plainRight, List.nil_append, length]
  rcases h.ends with rfl | ⟨lines, rfl⟩
  · rw [h.parts, byteLength_append, ← h.place, List.append_nil]
    rfl
  · simp [breaks]

end Around

end Text

namespace ScanError

open Token

variable {error : ScanError} {before left right after : List Char}

/-- Splitting at the length of a prefix gives the prefix. -/
theorem splitAtByte_append (cs cs' : List Char)
    : splitAtByte (byteLength cs) (cs ++ cs') = (cs, cs') := by
  induction cs with
  | nil => cases cs' <;> rfl
  | cons c cs ih =>
      have length : byteLength (c :: cs) = c.utf8Size + byteLength cs := rfl
      have some := c.utf8Size_pos
      obtain ⟨offset, same⟩ : ∃ offset, byteLength (c :: cs) = offset + 1 :=
        Nat.exists_eq_succ_of_ne_zero (by omega)
      have remaining : offset + 1 - c.utf8Size = byteLength cs := by omega
      rw [same, List.cons_append, splitAtByte, remaining, ih]

/-- The parts of the line are those around the place of the error. -/
theorem lineParts_eq (h : Text.Around error.source.toList error.pos before left right after)
    : error.lineParts = (left, right) := by
  have starts : before.reverse = [] ∨ ∃ lines, before.reverse = '\n' :: lines := by
    rcases h.starts with rfl | ⟨lines, rfl⟩
    · exact .inl rfl
    · exact .inr ⟨lines.reverse, by simp⟩
  have plain : '\n' ∉ left.reverse := by
    rw [List.mem_reverse]
    exact h.plainLeft
  unfold lineParts
  rw [h.place, h.parts, splitAtByte_append]
  dsimp only
  rw [List.reverse_append, Text.takeWhile_line plain starts, List.reverse_reverse,
    Text.takeWhile_line h.plainRight h.ends]

theorem marker_eq (h : Text.Around error.source.toList error.pos before left right after)
    : error.marker = String.ofList (left ++ right) ++ "\n"
        ++ String.ofList (List.replicate left.length ' ') ++ "^" := by
  unfold marker
  rw [lineParts_eq h]

/-- Cut out by bytes, the marker is the same: no slice fails. -/
theorem cutMarker?_eq (h : Text.Around error.source.toList error.pos before left right after)
    : error.cutMarker? = some error.marker := by
  obtain ⟨source, pos, char⟩ := error
  dsimp only at h
  have front : Text.slice? source 0 pos = some (String.ofList (before ++ left)) := by
    have cut := Text.slice?_ofList [] (before ++ left) (right ++ after)
    rw [List.nil_append, ← h.parts, ← h.place, String.ofList_toList] at cut
    exact cut
  have back : Text.slice? source pos source.utf8ByteSize
      = some (String.ofList (right ++ after)) := by
    have cut := Text.slice?_ofList (before ++ left) (right ++ after) []
    rw [List.append_nil, ← h.parts, ← h.place, byteLength_eq, String.ofList_toList] at cut
    exact cut
  have margin : Text.slice? source (byteLength before) pos = some (String.ofList left) := by
    have cut := Text.slice?_ofList before left (right ++ after)
    rw [← h.parts, ← h.place, String.ofList_toList] at cut
    exact cut
  have line : Text.slice? source (byteLength before) (byteLength (before ++ (left ++ right)))
      = some (String.ofList (left ++ right)) := by
    have cut := Text.slice?_ofList before (left ++ right) after
    have regrouped : before ++ (left ++ right) ++ after = source.toList := by
      simp [h.parts]
    rw [regrouped, String.ofList_toList] at cut
    exact cut
  have length : source.utf8ByteSize = byteLength source.toList := by
    rw [byteLength_eq, String.ofList_toList]
  have lineEnd := h.lineEnd
  rw [← length] at lineEnd
  unfold cutMarker?
  rw [marker_eq h]
  simp only [front, back, String.toList_ofList, h.lineStart, lineEnd, margin, line, bind, pure,
    Option.bind_some, String.length_ofList]

end ScanError

/-- The message of an error ends in the line of the text that the error is in, and below it a caret
behind as many blanks as the line has characters before the place of the error. This holds for every
place between two characters of the text, and all slices that the marker takes are between two
characters as well.
-/
theorem message_marks (error : ScanError)
    (boundary : String.Pos.Raw.IsValid error.source ⟨error.pos⟩)
    : (∃ (before line after : String) (column : Nat),
        error.source = before ++ line ++ after
        ∧ (before = "" ∨ ∃ lines, before = lines ++ "\n")
        ∧ (after = "" ∨ ∃ lines, after = "\n" ++ lines)
        ∧ '\n' ∉ line.toList
        ∧ column ≤ line.length
        ∧ error.pos = before.utf8ByteSize
            + (String.ofList (line.toList.take column)).utf8ByteSize
        ∧ error.message = "unexpected character '" ++ error.char.toString ++ "' at position "
            ++ toString error.pos ++ "\n"
            ++ (line ++ "\n" ++ String.ofList (List.replicate column ' ') ++ "^"))
      ∧ error.cutMarker? = some error.marker := by
  obtain ⟨before, left, right, after, h⟩ := Text.Around.exists_of_isValid boundary
  refine ⟨⟨String.ofList before, String.ofList (left ++ right), String.ofList after, left.length,
    ?_, ?_, ?_, ?_, ?_, ?_, ?_⟩, ScanError.cutMarker?_eq h⟩
  · rw [← String.ofList_append, ← String.ofList_append, ← String.toList_inj, String.toList_ofList,
      h.parts]
    simp
  · rcases h.starts with rfl | ⟨lines, rfl⟩
    · exact .inl rfl
    · exact .inr ⟨String.ofList lines, String.ofList_append⟩
  · rcases h.ends with rfl | ⟨lines, rfl⟩
    · exact .inl rfl
    · exact .inr ⟨String.ofList lines, String.ofList_cons⟩
  · rw [String.toList_ofList, List.mem_append]
    rintro (member | member)
    · exact h.plainLeft member
    · exact h.plainRight member
  · rw [String.length_ofList, List.length_append]
    exact Nat.le_add_right ..
  · rw [String.toList_ofList, List.take_left, h.place, Token.byteLength_append,
      Token.byteLength_eq, Token.byteLength_eq]
  · unfold ScanError.message
    rw [ScanError.marker_eq h]

namespace Arrow

/-- An error behind characters of two and of three bytes, in the second of three lines. -/
def error : ScanError :=
  ⟨"int é;\n  →@1;\n", 13, '@'⟩

end Arrow

/-- The caret stands below the fourth character of the line. -/
theorem message_marks_arrow
    : String.Pos.Raw.IsValid Arrow.error.source ⟨Arrow.error.pos⟩
      ∧ Arrow.error.marker = "  →@1;\n   ^"
      ∧ (∃ (before line after : String) (column : Nat),
        Arrow.error.source = before ++ line ++ after
        ∧ (before = "" ∨ ∃ lines, before = lines ++ "\n")
        ∧ (after = "" ∨ ∃ lines, after = "\n" ++ lines)
        ∧ '\n' ∉ line.toList
        ∧ column ≤ line.length
        ∧ 13 = before.utf8ByteSize + (String.ofList (line.toList.take column)).utf8ByteSize
        ∧ Arrow.error.message = "unexpected character '" ++ "@" ++ "' at position " ++ "13"
            ++ "\n" ++ (line ++ "\n" ++ String.ofList (List.replicate column ' ') ++ "^"))
      ∧ Arrow.error.cutMarker? = some Arrow.error.marker := by
  have boundary : String.Pos.Raw.IsValid Arrow.error.source ⟨Arrow.error.pos⟩ :=
    String.Pos.Raw.isValid_iff_exists_append.mpr ⟨"int é;\n  →", "@1;\n", rfl, rfl⟩
  exact ⟨boundary, by with_unfolding_all rfl, message_marks Arrow.error boundary⟩

end SlotC
