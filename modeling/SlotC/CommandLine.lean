import SlotC.Compile
import SlotC.Token.Outline

/-! The command line `stackcc`: what its arguments ask for, and what it answers.
-/

namespace SlotC.CommandLine

/-- How far to go with the source text: to its tokens, to its tree, or to its code. -/
inductive Stage where
  | tokens
  | tree
  | code
deriving DecidableEq, Repr

/-- What the arguments ask for. -/
inductive Request where
  | run (stage : Stage) (source : String)
  | version
  | help
  | misuse
deriving DecidableEq, Repr

/-- The arguments seen so far. -/
structure Seen where
  lex : Bool := false
  parse : Bool := false
  source : Option String := none
deriving DecidableEq, Repr

namespace Seen

/-- What the arguments ask for when no more follow. -/
def request (seen : Seen) : Request :=
  match seen.lex, seen.parse, seen.source with
  | true, true, _ | _, _, none => .misuse
  | true, false, some source => .run .tokens source
  | false, true, some source => .run .tree source
  | false, false, some source => .run .code source

/-- Takes the source text, of which there is one. -/
def takeSource (seen : Seen) (source : String) : Except Request Seen :=
  match seen.source with
  | none => .ok { seen with source := some source }
  | some _ => .error .misuse

/-- Takes a flag with a long name. Only `verbose` may be repeated. -/
def takeLong (seen : Seen) : String → Except Request Seen
  | "lex" => if seen.lex then .error .misuse else .ok { seen with lex := true }
  | "parse" => if seen.parse then .error .misuse else .ok { seen with parse := true }
  | "verbose" => .ok seen
  | "version" => .error .version
  | "help" => .error .help
  | _ => .error .misuse

/-- Takes flags of one letter each. -/
def takeShort (seen : Seen) : List Char → Except Request Seen
  | [] => .ok seen
  | 'v' :: letters => seen.takeShort letters
  | 'V' :: _ => .error .version
  | 'h' :: _ => .error .help
  | _ :: _ => .error .misuse

/-- Takes an argument that may be a flag. A lone dash is a source text. -/
def take (seen : Seen) (argument : String) : Except Request Seen :=
  match argument.toList with
  | '-' :: '-' :: name => seen.takeLong (String.ofList name)
  | '-' :: letter :: letters => seen.takeShort (letter :: letters)
  | _ => seen.takeSource argument

/-- Takes all arguments, up to the first that decides what they ask for. After `--` no
argument is a flag.
-/
def takeAll (seen : Seen) : List String → Except Request Seen
  | [] => .ok seen
  | "--" :: arguments => arguments.foldlM takeSource seen
  | argument :: arguments => do
    let seen ← seen.take argument
    seen.takeAll arguments

end Seen

/-- What the arguments ask for. -/
def request (arguments : List String) : Request :=
  match Seen.takeAll {} arguments with
  | .ok seen => seen.request
  | .error request => request

/-- What a run leaves behind: its exit code and what it wrote to its two outputs. -/
structure Response where
  exitCode : Nat
  stdout : String
  stderr : String
deriving DecidableEq, Repr

/-- Puts the lines of a message under a heading, indented. -/
def indentLines (message : String) : String :=
  String.join (("\n" ++ message).toList.map fun c => if c = '\n' then "\n    " else c.toString)

/-- The response to an error: what could not be done, and why. -/
def Response.failure (context message : String) : Response :=
  ⟨1, "", "Error: " ++ context ++ "\n\nCaused by:" ++ indentLines message ++ "\n"⟩

/-- The response of a run that stops early and dumps what it has. -/
def Response.dump (outline : Text.Outline) : Response :=
  ⟨0, "", outline.indented ++ "\n"⟩

/-- Goes from the source text to the given stage. -/
def run (stage : Stage) (source : String) : Response :=
  match Token.scan source with
  | .error error => .failure "failed to tokenize" error.message
  | .ok tokens =>
    if stage = .tokens then .dump (.list (tokens.map Token.outline))
    else
      match Program.ofTokens tokens with
      | .error error => .failure "failed to parse" error.message
      | .ok program =>
        if stage = .tree then .dump program.outline
        else
          match program.listing with
          | .error error => .failure "failed to generate code" error.message
          | .ok listing => ⟨0, Listing.render (Listing.preamble ++ listing), ""⟩

/-- How to call the program. -/
def usage : String :=
  "Usage: stackcc [OPTIONS] <SOURCE>\n"

/-- What `--help` prints. -/
def helpText : String :=
  "Compiles a C subset program into x86-64 Intel syntax assembly\n\n" ++ usage
    ++ "\nArguments:\n"
    ++ "  <SOURCE>  Program text to compile (not a file name)\n"
    ++ "\nOptions:\n"
    ++ "      --lex         Stop after lexing and dump the tokens to stderr\n"
    ++ "      --parse       Stop after parsing and dump the AST to stderr\n"
    ++ "  -v, --verbose...  Raise log verbosity; repeat for more (RUST_LOG overrides)\n"
    ++ "  -h, --help        Print help\n"
    ++ "  -V, --version     Print version\n"

/-- The response to a request. Arguments that ask for nothing are answered with how to call the
program.
-/
def Request.respond : Request → Response
  | .run stage source => CommandLine.run stage source
  | .version => ⟨0, "stackcc 0.4.0\n", ""⟩
  | .help => ⟨0, helpText, ""⟩
  | .misuse => ⟨2, "", usage⟩

/-- The response to the arguments. -/
def respond (arguments : List String) : Response :=
  (request arguments).respond

end SlotC.CommandLine
