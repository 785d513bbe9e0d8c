import Lexing.Cursor.Rest
import Lexing.Lexer.Requirement
import Lexing.TokenStream
import Lexing.Proofs.Scanning
import Lexing.Proofs.Lexeme
import Lexing.Proofs.Tiling
import Lexing.Proofs.Standing
import Lexing.Proofs.Positions
import Lexing.Proofs.Lines
import Lexing.Proofs.Tokens
import Lexing.Proofs.Splitting
import Lexing.Proofs.Classes
import Lexing.Proofs.Grammar
import Lexing.Proofs.Phrase
import Lexing.Proofs.Consumption
import Lexing.Proofs.Course
import Lexing.Proofs.Settling
import Lexing.Proofs.Tracing
import Lexing.Proofs.Boundary
import Lexing.Proofs.Wholeness
import Lexing.Proofs.Resuming
import Lexing.Proofs.Lookahead
import Lexing.Proofs.Lockstep
import Lexing.Proofs.Widths
import Lexing.Proofs.Exact
import Lexing.Proofs.Numbers
import Lexing.Proofs.Reporting
import Lexing.Proofs.Bulk
import Lexing.Proofs.Extent
import Lexing.Proofs.Locating
import Lexing.Proofs.Rendering
import Lexing.Proofs.Numerals
import Lexing.Proofs.Ending
import Lexing.Proofs.Looping
import Lexing.Proofs.Newlines
import Lexing.Proofs.Agreement
import Lexing.Proofs.Rounding
import Lexing.Proofs.Values
import Lexing.Proofs.Slicing
import Lexing.Proofs.Saturation
import Lexing.Proofs.Enclosing
