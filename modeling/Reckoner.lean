import Reckoner.Expr.Size
import Reckoner.Expr.Journal
import Reckoner.Expr.Release
import Reckoner.Expr.Term
import Reckoner.Rendering
import Reckoner.Text.Blank
import Reckoner.Evaluator
import Reckoner.Text.Quoted
import Reckoner.Decimal.Shortest
import Reckoner.Json.Numeral
import Reckoner.Json.Text
import Reckoner.Json.Draft
import Reckoner.Json.Scanner
import Reckoner.Json.Reading
import Reckoner.Expr.Reading
import Reckoner.Evaluator.Reading
import Reckoner.Metrics.Exposition
import Reckoner.Calculator.Error
import Reckoner.Settings.Value
import Reckoner.Settings.Literal
import Reckoner.Main
import Reckoner.Workbench
import Reckoner.Metrics.Ledger
import Reckoner.Proofs.Turns
import Reckoner.Proofs.Expr.Measure
import Reckoner.Proofs.Fold.Answers
import Reckoner.Proofs.Expr.Mirror
import Reckoner.Proofs.Fold.Simulation
import Reckoner.Proofs.Power.Exact
import Reckoner.Proofs.Evaluation.Exact
import Reckoner.Proofs.Evaluation.Agreement
import Reckoner.Proofs.Evaluation.Modulo
import Reckoner.Proofs.Evaluation.Congruence
import Reckoner.Proofs.Evaluation.OperandOrder
import Reckoner.Proofs.Rendering.Ink
import Reckoner.Proofs.Rendering.UniqueReading
import Reckoner.Proofs.Rendering.Stack
import Reckoner.Proofs.Rendering.Marks
import Reckoner.Proofs.Rendering.Chains
import Reckoner.Proofs.Text.Canonical
import Reckoner.Proofs.Text.Utf8
import Reckoner.Proofs.Rendering.SingleSpaced
import Reckoner.Proofs.Text.Nesting
import Reckoner.Proofs.Expr.Paths
import Reckoner.Proofs.Rendering.Balance
import Reckoner.Proofs.Power.Computed
import Reckoner.Proofs.Power.Limits
import Reckoner.Proofs.Json.Drafts
import Reckoner.Proofs.Expr.RoundTrip
import Reckoner.Proofs.Expr.Reads
import Reckoner.Proofs.Expr.Stability
import Reckoner.Proofs.Json.Integer
import Reckoner.Proofs.Expr.Presentation
import Reckoner.Proofs.Expr.Acceptance
import Reckoner.Proofs.Expr.Listing
import Reckoner.Proofs.Postfix.Symbols
import Reckoner.Proofs.Fold.Bounds
import Reckoner.Proofs.Fold.Calls
import Reckoner.Proofs.Metrics.Accounting
import Reckoner.Proofs.Calculator.Reports
import Reckoner.Proofs.Expr.Places
import Reckoner.Proofs.Expr.Released
import Reckoner.Proofs.Text.Lines
import Reckoner.Proofs.Calculator.UniqueReading
import Reckoner.Proofs.Metrics.Readback
import Reckoner.Proofs.Settings.Relevance
import Reckoner.Proofs.Expr.SelfDelimiting
import Reckoner.Proofs.Expr.Perfect
