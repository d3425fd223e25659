import Tickle.Decimal.Rounding
import Tickle.Decimal.Shortest
import Tickle.Error
import Tickle.Format.Directive
import Tickle.Format.Fill
import Tickle.Format.Real
import Tickle.ListText
import Tickle.Number.Binary64
import Tickle.Number.DoubleText
import Tickle.Number.Numeral
import Tickle.Proofs.ErrorFamily
import Tickle.Proofs.Failure
import Tickle.Proofs.ListText.BraceSafe
import Tickle.Proofs.ListText.RoundTrip
import Tickle.Proofs.ListText.Separators
import Tickle.Proofs.ListText.Stability
import Tickle.Proofs.Number.DecimalIntegers
import Tickle.Proofs.Run.Activity
import Tickle.Proofs.Run.Congruence
import Tickle.Proofs.Run.Frame
import Tickle.Proofs.Run.Growth
import Tickle.Proofs.Run.IndexNames
import Tickle.Proofs.Run.LargerLimits
import Tickle.Proofs.Run.LimitChecks
import Tickle.Proofs.Run.Outcome
import Tickle.Proofs.Run.Procedures
import Tickle.Proofs.Run.QuotedValues
import Tickle.Proofs.Run.ScriptsInTurn
import Tickle.Proofs.Run.Sinks
import Tickle.Proofs.Run.Termination
import Tickle.Proofs.Run.Texts
import Tickle.Proofs.Run.Unwinding
import Tickle.Proofs.Scope.Writes
import Tickle.Proofs.Text.NameChars
import Tickle.Proofs.Token.Delivery
import Tickle.Proofs.Token.ExpressionWords
import Tickle.Proofs.Token.Nesting
import Tickle.Proofs.Token.NextLine
import Tickle.Proofs.Token.Pieces
import Tickle.Proofs.Token.ReadOn
import Tickle.Proofs.Token.Suffix
import Tickle.Proofs.Tree.BracketedScripts
import Tickle.Proofs.Tree.CommandGrammar
import Tickle.Proofs.Tree.Descent
import Tickle.Proofs.Tree.ExpressionGrammar
import Tickle.Proofs.Tree.ExpressionText
import Tickle.Proofs.Tree.Grammar
import Tickle.Proofs.Tree.JoinedScripts
import Tickle.Proofs.Tree.QuotedWords
import Tickle.Proofs.Tree.References
import Tickle.Proofs.Tree.ScriptGrammar
import Tickle.Proofs.Tree.SubstitutionText
import Tickle.Proofs.Value.Wrapping
import Tickle.Run.Basic
import Tickle.Run.Builtins
import Tickle.Run.Clauses
import Tickle.Run.Command
import Tickle.Run.Execute
import Tickle.Run.Lists
import Tickle.Run.Strings
import Tickle.Run.Substitute
import Tickle.Run.Trace
import Tickle.Scope.Basic
import Tickle.Scope.Store
import Tickle.Scope.VarName
import Tickle.Session
import Tickle.Text.Alnum
import Tickle.Text.Blank
import Tickle.Text.Case
import Tickle.Text.CodeRanges
import Tickle.Text.Digit
import Tickle.Text.Glob
import Tickle.Text.Trim
import Tickle.Text.WordBounds
import Tickle.Token.Basic
import Tickle.Token.Cursor
import Tickle.Token.Expression
import Tickle.Token.Reader
import Tickle.Token.Relay
import Tickle.Token.Scanner
import Tickle.Token.Script
import Tickle.Token.Substitution
import Tickle.Tree.Expression
import Tickle.Tree.ExpressionText
import Tickle.Tree.Node
import Tickle.Tree.Script
import Tickle.Tree.Substitution
import Tickle.Value.Basic
import Tickle.Value.Evaluate
import Tickle.Value.Functions
import Tickle.Value.Operators
import Tickle.Proofs.Run.ElementIndex
import Tickle.Proofs.Tree.Parentheses
import Tickle.Proofs.Tree.MissingOperands
import Tickle.Proofs.Value.Division
import Tickle.Proofs.Value.IntegerRange
import Tickle.Proofs.Token.LongLiterals
import Tickle.Proofs.Value.IntegerResults
import Tickle.Proofs.Value.ExpressionErrors
import Tickle.Proofs.ListText.Concatenation
import Tickle.Proofs.ListText.Indexing
import Tickle.Proofs.Text.Runs
import Tickle.Proofs.Value.IntegerLiterals
import Tickle.Proofs.Run.ClauseSelection
import Tickle.Proofs.Run.BracedWords
import Tickle.Proofs.Run.EscapedWords
import Tickle.Proofs.Run.Traces
import Tickle.Proofs.Scope.History
import Tickle.Proofs.Token.Stream
import Tickle.Proofs.Tree.ScriptErrors
import Tickle.Proofs.Format.Pieces
import Tickle.Proofs.Format.Filling
import Tickle.Proofs.Text.WordBounds
import Tickle.Proofs.Number.WholeDoubles
import Tickle.Proofs.Run.IntegerConditions
import Tickle.Proofs.Stack
import Tickle.Proofs.Tree.StackDepth
import Tickle.Proofs.Value.StackDepth
