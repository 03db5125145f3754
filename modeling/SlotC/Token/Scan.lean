import SlotC.Text.Blank
import SlotC.Token.Basic

/-! Reading a source text into tokens. A token is the longest lexeme that starts where the
last one ended, blanks skipped; the first character that starts none is the error.
-/

namespace SlotC

/-- A character at which scanning stopped. -/
structure ScanError where
  source : String
  pos : Nat
  char : Char
deriving DecidableEq, Repr

namespace ScanError

/-- Splits characters at a byte offset. -/
def splitAtByte : Nat → List Char → List Char × List Char
  | 0, cs => ([], cs)
  | _ + 1, [] => ([], [])
  | offset + 1, c :: cs =>
    let (before, after) := splitAtByte (offset + 1 - c.utf8Size) cs
    (c :: before, after)

/-- The part of the error's line that stands before the character, and the part from it on.
-/
def lineParts (error : ScanError) : List Char × List Char :=
  let (before, after) := splitAtByte error.pos error.source.toList
  ((before.reverse.takeWhile (· != '\n')).reverse, after.takeWhile (· != '\n'))

/-- The line of the error, and below it a caret under the character. -/
def marker (error : ScanError) : String :=
  let (before, after) := error.lineParts
  String.ofList (before ++ after) ++ "\n"
    ++ String.ofList (List.replicate before.length ' ') ++ "^"

/-- The error as a message of three lines. -/
def message (error : ScanError) : String :=
  "unexpected character '" ++ error.char.toString ++ "' at position "
    ++ toString error.pos ++ "\n" ++ error.marker

end ScanError

namespace Token

/-- Whether a word may start with `c`. -/
def isWordStart (c : Char) : Bool :=
  c.isAlpha || c == '_'

/-- Whether `c` may stand inside a word. -/
def isWordChar (c : Char) : Bool :=
  c.isAlphanum || c == '_'

/-- Divides the characters after `first` into those that belong to the lexeme it starts and
those that do not.
-/
def extent (first : Char) (cs : List Char) : List Char × List Char :=
  if first.isDigit then (cs.takeWhile Char.isDigit, cs.dropWhile Char.isDigit)
  else if isWordStart first then (cs.takeWhile isWordChar, cs.dropWhile isWordChar)
  else
    match Kind.ofCharEqual? first, cs with
    | some _, '=' :: rest => (['='], rest)
    | _, _ => ([], cs)

/-- The kind of the lexeme with the given first and further characters, if it is one. -/
def kindOf? (first : Char) (more : List Char) : Option Kind :=
  if first.isDigit then some .constant
  else if isWordStart first then some (Kind.ofWord (String.ofList (first :: more)))
  else
    match more with
    | [] => Kind.ofChar? first
    | _ :: _ => Kind.ofCharEqual? first

/-- The value of a number with one more digit. It is kept to 64 bits, so a long number wraps
around.
-/
def addDigit (value : Int64) (digit : Char) : Int64 :=
  value * 10 + .ofNat (digit.toNat - '0'.toNat)

/-- The value of a lexeme: that of its digits if it is a number, and zero otherwise. -/
def valueOf (kind : Kind) (text : List Char) : Int64 :=
  if kind = .constant then text.foldl addDigit 0 else 0

/-- Bytes that characters take in a source text. -/
def byteLength (cs : List Char) : Nat :=
  cs.foldr (fun c bytes => c.utf8Size + bytes) 0

/-- An extent loses no character. -/
theorem extent_append (first : Char) (cs : List Char)
    : (extent first cs).1 ++ (extent first cs).2 = cs := by
  unfold extent
  split
  · exact List.takeWhile_append_dropWhile
  · split
    · exact List.takeWhile_append_dropWhile
    · split <;> rfl

/-- What follows a lexeme is no longer than what followed its first character. -/
theorem length_extent_le (first : Char) (cs : List Char)
    : (extent first cs).2.length ≤ cs.length := by
  have h := congrArg List.length (extent_append first cs)
  rw [List.length_append] at h
  omega

/-- A character that starts no lexeme, with its place. -/
structure Stray where
  pos : Nat
  char : Char
deriving DecidableEq, Repr

/-- The tokens of the given characters, the first of which is at byte `pos`. A number that
runs into a word is an error at the first character of the word.
-/
def scanFrom (pos : Nat) : List Char → Except Stray (List Token)
  | [] => .ok []
  | first :: cs =>
    if Text.isBlank first then scanFrom (pos + first.utf8Size) cs
    else
      let more := (extent first cs).1
      let rest := (extent first cs).2
      let next := pos + byteLength (first :: more)
      match kindOf? first more with
      | none => .error ⟨pos, first⟩
      | some kind =>
        match kind, rest.head?.filter isWordStart with
        | .constant, some char => .error ⟨next, char⟩
        | _, _ => do
          let tokens ← scanFrom next rest
          return ⟨kind, String.ofList (first :: more), valueOf kind (first :: more), pos⟩
            :: tokens
termination_by cs => cs.length
decreasing_by
  · simp
  · have := length_extent_le first cs
    simp only [List.length_cons]
    omega

/-- The tokens of a source text. -/
def scan (source : String) : Except ScanError (List Token) :=
  (scanFrom 0 source.toList).mapError fun stray => ⟨source, stray.pos, stray.char⟩

end Token

end SlotC
