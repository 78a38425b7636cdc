import PrattFrontend.Main
import PrattFrontend.Token.Lexer
import PrattFrontend.Proofs.Language.Acceptance
import PrattFrontend.Proofs.Parser.Pulling
import PrattFrontend.Proofs.Statement.Tokens
import PrattFrontend.Proofs.Statement.Semicolons
import PrattFrontend.Proofs.Statement.Composition
import PrattFrontend.Proofs.Statement.ErasedValues
import PrattFrontend.Proofs.Statement.ErrorPlaces
import PrattFrontend.Proofs.Rendering.RoundTrip
import PrattFrontend.Proofs.Statement.Unbounded
import PrattFrontend.Proofs.Statement.Layout
import PrattFrontend.Proofs.Token.Spacing
import PrattFrontend.Proofs.Rendering.Unambiguous
import PrattFrontend.Proofs.Statement.Resumption
import PrattFrontend.Proofs.Statement.Widening
import PrattFrontend.Proofs.Statement.Log
import PrattFrontend.Proofs.Expression.Cutoff
import PrattFrontend.Proofs.Text.Lines
import PrattFrontend.Proofs.Token.LexerSessions
import PrattFrontend.Proofs.Report.Caret
import PrattFrontend.Proofs.Cli.Answers
import PrattFrontend.Proofs.Report.Printing
