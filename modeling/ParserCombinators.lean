import ParserCombinators.Character.Blank
import ParserCombinators.Character.Digit
import ParserCombinators.Character.Letter
import ParserCombinators.Character.Printable
import ParserCombinators.Character.Ranges
import ParserCombinators.Character.UpperCase
import ParserCombinators.CommandLine.Arguments
import ParserCombinators.CommandLine.Binding
import ParserCombinators.CommandLine.Lines
import ParserCombinators.CommandLine.Report
import ParserCombinators.CommandLine.StoppingPoint
import ParserCombinators.CommandLine.Usage
import ParserCombinators.Expression.Basic
import ParserCombinators.Expression.Evaluation
import ParserCombinators.Expression.Grammar
import ParserCombinators.Expression.Rendering
import ParserCombinators.Fault
import ParserCombinators.Fault.Mismatch
import ParserCombinators.Introduction
import ParserCombinators.Json.Grammar
import ParserCombinators.Json.Value
import ParserCombinators.Main
import ParserCombinators.Number.Arithmetic
import ParserCombinators.Number.Basic
import ParserCombinators.Number.Binary64
import ParserCombinators.Number.Powers
import ParserCombinators.Number.Reading
import ParserCombinators.Number.Shortest
import ParserCombinators.Parser.Basic
import ParserCombinators.Parser.Cells
import ParserCombinators.Parser.Lexical
import ParserCombinators.Parser.Matcher
import ParserCombinators.Parser.Run
import ParserCombinators.Session.Basic
import ParserCombinators.Session.Building
import ParserCombinators.Session.Function
import ParserCombinators.Session.Recipe
import ParserCombinators.Text.Basic
import ParserCombinators.Text.CodePoint
import ParserCombinators.Text.Quoted
import ParserCombinators.Text.Strip
import ParserCombinators.Value.Arithmetic
import ParserCombinators.Value.Basic
import ParserCombinators.Proofs.Parser.Choosing
import ParserCombinators.Proofs.Parser.Repetition
import ParserCombinators.Proofs.Character.Classes
import ParserCombinators.Proofs.Parser.Tokens
import ParserCombinators.Proofs.Expression.Grammar
import ParserCombinators.Proofs.Parser.Longest
import ParserCombinators.Proofs.Expression.Soundness
import ParserCombinators.Proofs.Expression.Completeness
import ParserCombinators.Proofs.Expression.Longest
import ParserCombinators.Proofs.Expression.RoundTrip
import ParserCombinators.Proofs.Expression.Spacing
import ParserCombinators.Proofs.Json.Numeral
import ParserCombinators.Proofs.Json.Number
import ParserCombinators.Proofs.Json.NumberText
import ParserCombinators.Proofs.Json.Quoted
import ParserCombinators.Proofs.Json.Grammar
import ParserCombinators.Proofs.Json.Soundness
import ParserCombinators.Proofs.Json.Completeness
import ParserCombinators.Proofs.Json.Longest
import ParserCombinators.Proofs.Parser.Comparison
import ParserCombinators.Proofs.Parser.Positions
import ParserCombinators.Proofs.Parser.Depth
import ParserCombinators.Proofs.Parser.Scope
import ParserCombinators.Proofs.Parser.Construction
import ParserCombinators.Proofs.Parser.Stability
import ParserCombinators.Proofs.Session.Faults
import ParserCombinators.Proofs.Session.History
import ParserCombinators.Proofs.Json.Writing
import ParserCombinators.Proofs.Number.Faults
import ParserCombinators.Proofs.Expression.Produced
import ParserCombinators.Proofs.Parser.Laws
import ParserCombinators.Proofs.CommandLine.Survival
import ParserCombinators.Proofs.Parser.Visits
import ParserCombinators.Proofs.Parser.Behaviour
import ParserCombinators.Proofs.Parser.Termination
import ParserCombinators.Proofs.Expression.Termination
import ParserCombinators.Proofs.Json.Termination
import ParserCombinators.Proofs.Parser.Renaming
import ParserCombinators.Proofs.Grammars
import ParserCombinators.Proofs.Parser.Successive
import ParserCombinators.Proofs.Parser.Folding
import ParserCombinators.Proofs.Parser.Fusion
import ParserCombinators.Proofs.Json.Separation
import ParserCombinators.Proofs.Expression.Precedence
import ParserCombinators.Proofs.Parser.Sequencing
import ParserCombinators.Proofs.Parser.Unrolling
import ParserCombinators.Proofs.Session.Assignment
import ParserCombinators.Proofs.Expression.StackMachine
import ParserCombinators.Proofs.Value.Faults
import ParserCombinators.Proofs.Expression.Names
import ParserCombinators.Proofs.Expression.Listing
import ParserCombinators.Proofs.Expression.Readability
import ParserCombinators.Proofs.Parser.Alternatives
import ParserCombinators.Proofs.Json.Strings
import ParserCombinators.Proofs.Parser.Raising
import ParserCombinators.Proofs.Json.Faults
import ParserCombinators.Proofs.Json.RepeatedKeys
import ParserCombinators.Proofs.Introduction.Pairs
import ParserCombinators.Proofs.Number.Integers
import ParserCombinators.Proofs.CommandLine.Bindings
import ParserCombinators.Proofs.CommandLine.Output
import ParserCombinators.Proofs.Parser.Literal
import ParserCombinators.Proofs.Text.Strip
import ParserCombinators.Proofs.CommandLine.Lines
import ParserCombinators.Proofs.CommandLine.StoppingPoint
import ParserCombinators.Proofs.Parser.Integer
import ParserCombinators.Proofs.Parser.Scripts
import ParserCombinators.Proofs.Expression.Scripts
