import ExprLang.Builtin
import ExprLang.Command.Arguments
import ExprLang.Command.Help
import ExprLang.Command.Perform
import ExprLang.Control
import ExprLang.Decimal.Basic
import ExprLang.Decimal.Division
import ExprLang.Decimal.Written
import ExprLang.Dump.Basic
import ExprLang.Dump.Error
import ExprLang.Dump.Expr
import ExprLang.Dump.Token
import ExprLang.Eval.Error
import ExprLang.Eval.Machine
import ExprLang.Eval.Sink
import ExprLang.Expr.Basic
import ExprLang.Expr.Error
import ExprLang.Expr.Literal
import ExprLang.Expr.Parser
import ExprLang.Expr.Source
import ExprLang.FrameChain
import ExprLang.Main
import ExprLang.Operator
import ExprLang.Report
import ExprLang.Scope
import ExprLang.Session
import ExprLang.Span
import ExprLang.Text.Blank
import ExprLang.Text.Bytes
import ExprLang.Text.Extender
import ExprLang.Text.Lines
import ExprLang.Text.Printable
import ExprLang.Text.Quoted
import ExprLang.Token.Basic
import ExprLang.Token.Escape
import ExprLang.Token.Kind
import ExprLang.Token.Scan
import ExprLang.Ty
import ExprLang.Typing.Checker
import ExprLang.Typing.Error
import ExprLang.Typing.Rules
import ExprLang.Value.Basic
import ExprLang.Value.Operation
import ExprLang.Proofs.CheckerBalance
import ExprLang.Proofs.EvalRun
import ExprLang.Proofs.Soundness.Agreement
import ExprLang.Proofs.CheckerExits
import ExprLang.Proofs.Soundness.Operation
import ExprLang.Proofs.Soundness.Simulation
import ExprLang.Proofs.Soundness.Program
import ExprLang.Proofs.Soundness.Visit
import ExprLang.Proofs.TypeSoundness
import ExprLang.Proofs.ScopesInStep
import ExprLang.Proofs.RoundTrip.Lexes
import ExprLang.Proofs.RoundTrip.Literals
import ExprLang.Proofs.RoundTrip.Words
import ExprLang.Proofs.RoundTrip.Rendered
import ExprLang.Proofs.RoundTrip.Attempt
import ExprLang.Proofs.RoundTrip.Reading
import ExprLang.Proofs.RoundTrip
import ExprLang.Proofs.Layout.Checking
import ExprLang.Proofs.Layout.Evaluation
import ExprLang.Proofs.ParallelEvaluation
import ExprLang.Proofs.ParallelReading
import ExprLang.Proofs.Places
import ExprLang.Proofs.Layout
import ExprLang.Proofs.Formatting
import ExprLang.Proofs.Grammar.Phrases
import ExprLang.Proofs.Grammar.Scanned
import ExprLang.Proofs.Grammar.Soundness
import ExprLang.Proofs.Grammar
import ExprLang.Proofs.Frames.Labels
import ExprLang.Proofs.Frames.Watch
import ExprLang.Proofs.Frames.Steady
import ExprLang.Proofs.Frames
import ExprLang.Proofs.Scanning
import ExprLang.Proofs.Output
import ExprLang.Proofs.Nesting.Limit
import ExprLang.Proofs.NestingLimit
import ExprLang.Proofs.Nesting.Bound
import ExprLang.Proofs.Nesting.Towers
import ExprLang.Proofs.TreeHeight
import ExprLang.Proofs.Equality
import ExprLang.Proofs.Shadowing.Evaluation
import ExprLang.Proofs.Shadowing.Checking
import ExprLang.Proofs.Shadowing
import ExprLang.Proofs.Copying.Matching
import ExprLang.Proofs.Copying
import ExprLang.Proofs.Precedence
import ExprLang.Proofs.Lexemes
import ExprLang.Proofs.Complaints
import ExprLang.Proofs.Decoding
import ExprLang.Proofs.CheckerRules
import ExprLang.Proofs.DeadCode
import ExprLang.Proofs.Spans.Geometry
import ExprLang.Proofs.Spans.Parsing
import ExprLang.Proofs.EvalRules
import ExprLang.Proofs.Spans
import ExprLang.Proofs.Numbers
import ExprLang.Proofs.Division
import ExprLang.Proofs.EvalValues
import ExprLang.Proofs.MapLiterals
import ExprLang.Proofs.OperatorTyping
import ExprLang.Proofs.Scoping.Runs
import ExprLang.Proofs.Scoping.Links
import ExprLang.Proofs.Scoping
import ExprLang.Proofs.PlainDecimals
import ExprLang.Proofs.ReportLines
import ExprLang.Proofs.Assignments.Following
import ExprLang.Proofs.Assignments
import ExprLang.Proofs.Bookkeeping.Strict
import ExprLang.Proofs.Bookkeeping
import ExprLang.Proofs.NestingDepth
