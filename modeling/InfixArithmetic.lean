import InfixArithmetic.Main
import InfixArithmetic.Calculator.Choice
import InfixArithmetic.Text.Plain
import InfixArithmetic.Expression.Grammar
import InfixArithmetic.Lexeme.Row
import InfixArithmetic.Lexeme.Pattern
import InfixArithmetic.Lexeme.Grammar
import InfixArithmetic.Reduction.Postfix
import InfixArithmetic.Proofs.Postfix
import InfixArithmetic.Proofs.Derivation
import InfixArithmetic.Proofs.LexemeRow
import InfixArithmetic.Proofs.LexemePattern
import InfixArithmetic.Proofs.Evaluation
import InfixArithmetic.Proofs.Conservation
import InfixArithmetic.Proofs.Counting
import InfixArithmetic.Proofs.Operands
import InfixArithmetic.Proofs.Derivability
import InfixArithmetic.Proofs.Acceptance
import InfixArithmetic.Proofs.Group
import InfixArithmetic.Proofs.TokenRow
import InfixArithmetic.Proofs.MinusMode
import InfixArithmetic.Proofs.Runs
import InfixArithmetic.Proofs.Shape
import InfixArithmetic.Proofs.Pairs
import InfixArithmetic.Proofs.Stripping
import InfixArithmetic.Proofs.Blame
import InfixArithmetic.Proofs.Blanks
import InfixArithmetic.Proofs.Loosening
import InfixArithmetic.Proofs.Words
import InfixArithmetic.Proofs.Lines
import InfixArithmetic.Proofs.StandardInput
import InfixArithmetic.Proofs.Settings
import InfixArithmetic.Proofs.Choices
import InfixArithmetic.Proofs.Messages
import InfixArithmetic.Proofs.Framing
import InfixArithmetic.Proofs.RunLog
import InfixArithmetic.Expression.Node
import InfixArithmetic.Proofs.Surplus
import InfixArithmetic.Proofs.Applications
import InfixArithmetic.Proofs.Unambiguity
import InfixArithmetic.Proofs.Postorder
import InfixArithmetic.Proofs.Rounding
import InfixArithmetic.Proofs.Decimals
import InfixArithmetic.Proofs.FloatBits
import InfixArithmetic.Proofs.RealText
import InfixArithmetic.Proofs.Layers
import InfixArithmetic.Proofs.Verdict
import InfixArithmetic.Proofs.Overlay
import InfixArithmetic.Proofs.Records
import InfixArithmetic.Proofs.Attempts
