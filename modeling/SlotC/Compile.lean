import SlotC.Assembly.Render
import SlotC.Code.Function
import SlotC.Grammar.Program
import SlotC.Token.Scan

/-! Compilation of a source text to the text of a listing. -/

namespace SlotC

/-- Why a source text has no compiled form: the stage that failed, and its error. -/
inductive CompileError where
  | scan (error : ScanError)
  | parse (error : SyntaxError)
  | generate (error : CodeError)

/-- The error as a message. -/
def CompileError.message : CompileError → String
  | .scan error => "lexer error: " ++ error.message
  | .parse error => "syntax error: " ++ error.message
  | .generate error => "codegen error: " ++ error.message

/-- The program that a source text spells. -/
def Program.ofSource (source : String) : Except CompileError Program := do
  let tokens ← (Token.scan source).mapError .scan
  (Program.ofTokens tokens).mapError .parse

/-- The listing of a source text, without the preamble. -/
def listingOfSource (source : String) : Except CompileError Listing := do
  let program ← Program.ofSource source
  program.listing.mapError .generate

/-- The assembly text of a source text. -/
def compile (source : String) : Except CompileError String := do
  let listing ← listingOfSource source
  return Listing.render (Listing.preamble ++ listing)

end SlotC
