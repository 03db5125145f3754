import SlotC.Main
import SlotC.Proofs.Code.Emission
import SlotC.Proofs.Code.Shape
import SlotC.Proofs.Machine.Basic
import SlotC.Proofs.Machine.Pieces
import SlotC.Proofs.Correctness.Expr
import SlotC.Proofs.Code.Height
import SlotC.Proofs.Code.Labels
import SlotC.Proofs.Machine.Run
import SlotC.Proofs.Semantics.Stmt
import SlotC.Proofs.Correctness.Stmt
import SlotC.Proofs.Code.Function
import SlotC.Proofs.Code.Numbering
import SlotC.Proofs.Frame.Renaming
import SlotC.Proofs.Code.Renumbering
import SlotC.Proofs.Code.Frame
import SlotC.Proofs.Code.Encoding
import SlotC.Proofs.Grammar.Reading
import SlotC.Proofs.Grammar.Function
import SlotC.Proofs.Correctness.Function
import SlotC.Proofs.Code.ControlFlow
import SlotC.Proofs.Machine.Alignment
import SlotC.Proofs.Grammar.Syntax
import SlotC.Proofs.Grammar.Expr
import SlotC.Proofs.Grammar.Precedence
import SlotC.Proofs.Grammar.Expansion
import SlotC.Proofs.Grammar.Phrase
import SlotC.Proofs.Grammar.Scan
import SlotC.Proofs.Grammar.Likeness
import SlotC.Proofs.Grammar.LikePrograms
import SlotC.Proofs.Grammar.Names
import SlotC.Proofs.Grammar.Acceptance
import SlotC.Proofs.Grammar.Layers
import SlotC.Proofs.Frame.Tiling
import SlotC.Proofs.Frame.Room
import SlotC.Proofs.Grammar.Window
import SlotC.Proofs.Grammar.Blame
import SlotC.Proofs.Grammar.Locality
import SlotC.Proofs.Grammar.Extension
import SlotC.Proofs.Grammar.Declarations
import SlotC.Proofs.Grammar.Regular
import SlotC.Proofs.Code.Faults
import SlotC.Proofs.Code.Reuse
import SlotC.Proofs.Source.Lexeme
import SlotC.Proofs.Assembly.Reading
import SlotC.Proofs.Source.Division
import SlotC.Proofs.Source.Stray
import SlotC.Proofs.Source.Print
import SlotC.Proofs.Source.Spelling
import SlotC.Proofs.Source.Names
import SlotC.Proofs.Source.RoundTrip
import SlotC.Proofs.Source.Separate
import SlotC.Proofs.Source.Symbols
import SlotC.Proofs.Source.Spacing
import SlotC.Proofs.Source.Renaming
import SlotC.Proofs.Source.Marker
import SlotC.Proofs.Grammar.Cursor
import SlotC.Proofs.Grammar.Follows
import SlotC.Proofs.Grammar.Progress
