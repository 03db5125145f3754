import SlotC.Scalar

/-! Tokens: the kinds of lexeme that the language has, and a lexeme with its place in the
source text.
-/

namespace SlotC

/-- The kind of a token. -/
inductive Kind where
  | type (scalar : Scalar)
  | identifier
  | constant
  | ifWord
  | elseWord
  | whileWord
  | forWord
  | returnWord
  | sizeofWord
  | openParen
  | closeParen
  | openBrace
  | closeBrace
  | openBracket
  | closeBracket
  | semicolon
  | comma
  | plus
  | minus
  | star
  | slash
  | ampersand
  | assign
  | equal
  | notEqual
  | less
  | greater
  | lessEqual
  | greaterEqual
deriving DecidableEq, Repr

namespace Kind

/-- How a message names the kind: its text where it has only one, else the class. -/
def spelling : Kind → String
  | .type scalar => scalar.name
  | .identifier => "identifier"
  | .constant => "number"
  | .ifWord => "if"
  | .elseWord => "else"
  | .whileWord => "while"
  | .forWord => "for"
  | .returnWord => "return"
  | .sizeofWord => "sizeof"
  | .openParen => "("
  | .closeParen => ")"
  | .openBrace => "\x7b"
  | .closeBrace => "\x7d"
  | .openBracket => "["
  | .closeBracket => "]"
  | .semicolon => ";"
  | .comma => ","
  | .plus => "+"
  | .minus => "-"
  | .star => "*"
  | .slash => "/"
  | .ampersand => "&"
  | .assign => "="
  | .equal => "=="
  | .notEqual => "!="
  | .less => "<"
  | .greater => ">"
  | .lessEqual => "<="
  | .greaterEqual => ">="

/-- Whether the kind is the name of a type. -/
def isType : Kind → Bool
  | .type _ => true
  | _ => false

/-- The kind of a word: a keyword only if it is the whole word. -/
def ofWord (word : String) : Kind :=
  match word with
  | "if" => .ifWord
  | "else" => .elseWord
  | "while" => .whileWord
  | "for" => .forWord
  | "return" => .returnWord
  | "sizeof" => .sizeofWord
  | _ => ((Scalar.ofKeyword? word).map Kind.type).getD .identifier

/-- The kind of a one-character lexeme that is neither a word nor a number. -/
def ofChar? : Char → Option Kind
  | '(' => some .openParen
  | ')' => some .closeParen
  | '\x7b' => some .openBrace
  | '\x7d' => some .closeBrace
  | '[' => some .openBracket
  | ']' => some .closeBracket
  | ';' => some .semicolon
  | ',' => some .comma
  | '+' => some .plus
  | '-' => some .minus
  | '*' => some .star
  | '/' => some .slash
  | '&' => some .ampersand
  | '=' => some .assign
  | '<' => some .less
  | '>' => some .greater
  | _ => none

/-- The kind of the two-character lexeme made of a character and an equals sign. -/
def ofCharEqual? : Char → Option Kind
  | '=' => some .equal
  | '!' => some .notEqual
  | '<' => some .lessEqual
  | '>' => some .greaterEqual
  | _ => none

end Kind

/-- A lexeme of a source text. Only a constant has a value other than zero; `pos` is the
byte at which the text starts.
-/
structure Token where
  kind : Kind
  text : String
  value : Int64
  pos : Nat
deriving DecidableEq, Repr

namespace Token

/-- How a message shows the token. -/
def shown (token : Token) : String :=
  "'" ++ token.text ++ "'"

/-- The byte just after the token. -/
def endPos (token : Token) : Nat :=
  token.pos + token.text.utf8ByteSize

/-- The byte just after the last of the tokens, zero if there are none. -/
def endOf (tokens : List Token) : Nat :=
  (tokens.getLast?.map endPos).getD 0

end Token

end SlotC
