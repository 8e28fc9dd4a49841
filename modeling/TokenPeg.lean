import TokenPeg.Value
import TokenPeg.Value.Transform
import TokenPeg.Value.Condition
import TokenPeg.Text.Printable
import TokenPeg.Text.GraphemeExtend
import TokenPeg.Text.Literal
import TokenPeg.Lexeme
import TokenPeg.Lexeme.Test
import TokenPeg.Outcome
import TokenPeg.Scanner
import TokenPeg.Span
import TokenPeg.Grammar
import TokenPeg.Grammar.Run
import TokenPeg.Grammar.Check
import TokenPeg.Parse
import TokenPeg.Session
import TokenPeg.Arithmetic
import TokenPeg.Proofs.SessionBounds
import TokenPeg.Proofs.Contract
import TokenPeg.Proofs.Alternation
import TokenPeg.Proofs.Sequencing
import TokenPeg.Proofs.LeftCalls
import TokenPeg.Proofs.Termination
import TokenPeg.Proofs.Fuel
import TokenPeg.Proofs.Relocation
import TokenPeg.Proofs.Judgement
import TokenPeg.Proofs.Adequacy
import TokenPeg.Proofs.Repetition
import TokenPeg.Proofs.Completion
import TokenPeg.Proofs.Terminals
import TokenPeg.Proofs.Unrolling
import TokenPeg.Proofs.Delimiter
import TokenPeg.Proofs.Spelling
import TokenPeg.Proofs.Arithmetic
import TokenPeg.Proofs.MatchRange
