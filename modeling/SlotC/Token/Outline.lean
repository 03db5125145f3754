import SlotC.Text.Outline
import SlotC.Text.Quoted
import SlotC.Token.Basic

/-! Dumps of tokens. -/

namespace SlotC

open Text

/-- The name of a scalar type in a dump. -/
def Scalar.outline : Scalar → Outline
  | .int => .word "Int"

/-- The name of a kind in a dump. -/
def Kind.outline : Kind → Outline
  | .type scalar => .applied "Type" [scalar.outline]
  | .identifier => .word "Identifier"
  | .constant => .word "Constant"
  | .ifWord => .word "If"
  | .elseWord => .word "Else"
  | .whileWord => .word "While"
  | .forWord => .word "For"
  | .returnWord => .word "Return"
  | .sizeofWord => .word "Sizeof"
  | .openParen => .word "OpenParanth"
  | .closeParen => .word "CloseParanth"
  | .openBrace => .word "OpenCurly"
  | .closeBrace => .word "CloseCurly"
  | .openBracket => .word "OpenBracket"
  | .closeBracket => .word "CloseBracket"
  | .semicolon => .word "Semicolon"
  | .comma => .word "Comma"
  | .plus => .word "Plus"
  | .minus => .word "Hyphen"
  | .star => .word "Asterisk"
  | .slash => .word "FSlash"
  | .ampersand => .word "Ampersand"
  | .assign => .word "Assign"
  | .equal => .word "IsEqual"
  | .notEqual => .word "IsNotEqual"
  | .less => .word "IsLessThan"
  | .greater => .word "IsGreaterThan"
  | .lessEqual => .word "IsLessThanOrEqual"
  | .greaterEqual => .word "IsGreaterThanOrEqual"

/-- A token in a dump. -/
def Token.outline (token : Token) : Outline :=
  .record "Token"
    [("kind", token.kind.outline), ("text", .word (quoted token.text)),
      ("value", .word (toString token.value.toInt)), ("pos", .word (toString token.pos))]

end SlotC
