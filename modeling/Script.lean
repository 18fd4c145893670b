import Script.Builtin
import Script.Builtin.Argument
import Script.Builtin.Collection
import Script.Builtin.Conversion
import Script.Builtin.Math
import Script.Builtin.Reply
import Script.Builtin.Texts
import Script.CommandLine
import Script.CommandLine.Invocation
import Script.Config
import Script.Diagnostic
import Script.Diagnostic.Advisories
import Script.Diagnostic.Code
import Script.Diagnostic.Hint
import Script.Diagnostic.Joke
import Script.Diagnostic.Json
import Script.Diagnostic.Problem
import Script.Diagnostic.Report
import Script.Eval
import Script.Eval.Annotation
import Script.Eval.Branch
import Script.Eval.Call
import Script.Eval.Collection
import Script.Eval.Declaration
import Script.Eval.Evaluator
import Script.Eval.Loop
import Script.Eval.Machine
import Script.Eval.Native
import Script.Eval.Place
import Script.Hash.Fnv
import Script.Hash.Sha256
import Script.Main
import Script.Module
import Script.Number.Binary64
import Script.Number.Numeral
import Script.Number.Power
import Script.Number.Shortest
import Script.Scope.Arena
import Script.Scope.Frame
import Script.Session
import Script.Source.Location
import Script.Syntax.Parser
import Script.Syntax.Parser.Control
import Script.Syntax.Parser.Declaration
import Script.Syntax.Parser.Expression
import Script.Syntax.Parser.Grammar
import Script.Syntax.Parser.State
import Script.Syntax.Precedence
import Script.Syntax.Printer
import Script.Syntax.Quote
import Script.Syntax.Scan
import Script.Syntax.Tree
import Script.Text.Blank
import Script.Text.Case
import Script.Text.CaseTable
import Script.Text.Hidden
import Script.Text.Line
import Script.Text.Quoted
import Script.Text.Ranges
import Script.Text.Search
import Script.Token
import Script.Token.Lexer
import Script.Value
import Script.Value.Access
import Script.Value.Equality
import Script.Value.Heap
import Script.Value.Operator
import Script.Value.Range
import Script.Value.Text
import Script.Value.Type
import Script.Proofs.Scope.Reach
import Script.Proofs.Scope.Chains
import Script.Proofs.Scope.Names
import Script.Proofs.Scope.Slots
import Script.Proofs.Scope.Ledger
import Script.Proofs.Scope.Backlog
import Script.Proofs.Scope.Recycling
import Script.Proofs.Eval.Nesting
import Script.Proofs.Eval.Licences
import Script.Proofs.Eval.Rules
import Script.Proofs.Eval.Notes
import Script.Proofs.Eval.Balance
import Script.Proofs.Eval.Locals
import Script.Proofs.Eval.Constants
import Script.Proofs.Number.Numerals
import Script.Proofs.Number.Integers
import Script.Proofs.Token.Lexing
import Script.Proofs.Token.Partition
import Script.Proofs.Source.Position
import Script.Proofs.Token.Order
import Script.Proofs.Token.Proper
import Script.Proofs.Token.Extent
import Script.Proofs.Syntax.Bare
import Script.Proofs.Syntax.Lexemes
import Script.Proofs.Syntax.Printable
import Script.Proofs.Syntax.Running
import Script.Proofs.Syntax.Reading
import Script.Proofs.Syntax.Operators
import Script.Proofs.Syntax.Expressions
import Script.Proofs.Syntax.Operands
import Script.Proofs.Syntax.Blocks
import Script.Proofs.Syntax.Functions
import Script.Proofs.Syntax.Control
import Script.Proofs.Syntax.Statements
import Script.Proofs.Syntax.Trees
import Script.Proofs.Syntax.Spelling
import Script.Proofs.Syntax.Printing
import Script.Proofs.Syntax.PrintedStatements
import Script.Proofs.Syntax.PrintedBare
import Script.Proofs.Syntax.Yielding
import Script.Proofs.Syntax.AcceptedDeclarations
import Script.Proofs.Syntax.Accepted
import Script.Proofs.Syntax.RoundTrip
import Script.Proofs.Syntax.Ladder
import Script.Proofs.Syntax.Cursor
import Script.Proofs.Syntax.Progress
import Script.Proofs.Syntax.Passes
import Script.Proofs.Syntax.Productions
import Script.Proofs.Syntax.Termination
import Script.Proofs.Syntax.Weaving
import Script.Proofs.Syntax.Pieces
import Script.Proofs.Syntax.Relocation
import Script.Proofs.Syntax.Staying
import Script.Proofs.Syntax.Taking
import Script.Proofs.Syntax.TakenDeclarations
import Script.Proofs.Syntax.TakenExpressions
import Script.Proofs.Syntax.Conservation
import Script.Proofs.Syntax.CaseMode
import Script.Proofs.Syntax.Faults
import Script.Proofs.Syntax.FaultOrder
import Script.Proofs.Scope.Mapping
import Script.Proofs.Value.Recoding
import Script.Proofs.Value.Contents
import Script.Proofs.Value.Questions
import Script.Proofs.Builtin.Replies
import Script.Proofs.Eval.Comparison
import Script.Proofs.Eval.Steps
import Script.Proofs.Eval.Following
import Script.Proofs.Eval.Tasks
import Script.Proofs.Eval.Identical
import Script.Proofs.Eval.Jumps
import Script.Proofs.Eval.Termination
import Script.Proofs.Eval.Positions
import Script.Proofs.Eval.Calls
import Script.Proofs.Eval.CallLimit
import Script.Proofs.Eval.Regions
import Script.Proofs.Eval.Contents
import Script.Proofs.Syntax.Reports
import Script.Proofs.Syntax.Shapes
import Script.Proofs.Eval.Sources
import Script.Proofs.Syntax.Marks
import Script.Proofs.Eval.EndlessLoops
import Script.Proofs.Value.Paths
import Script.Proofs.Value.Printing
import Script.Proofs.Value.Pairing
import Script.Proofs.Value.Bisimilarity
import Script.Proofs.Value.MapOrder
import Script.Proofs.Eval.MapViews
import Script.Proofs.Scope.Acyclic
import Script.Proofs.Scope.Sweeping
import Script.Proofs.Scope.Assignment
import Script.Proofs.Value.References
import Script.Proofs.Value.Arithmetic
import Script.Proofs.Value.Ranges
import Script.Proofs.Builtin.References
import Script.Proofs.Builtin.Splitting
import Script.Proofs.Builtin.Powers
import Script.Proofs.Builtin.Searching
import Script.Proofs.Builtin.Conversions
import Script.Proofs.Eval.References
import Script.Proofs.Eval.Wholeness
import Script.Proofs.Eval.Turns
import Script.Proofs.Eval.Snapshots
import Script.Proofs.Eval.Spots
import Script.Proofs.Eval.Writes
import Script.Proofs.Eval.Arithmetic
import Script.Proofs.Eval.Stepping
import Script.Proofs.Eval.RangeViews
import Script.Proofs.Eval.Lengths
import Script.Proofs.Eval.CallPaths
import Script.Proofs.Eval.Annotations
import Script.Proofs.Eval.UnknownTypes
import Script.Proofs.Eval.Advisories
import Script.Proofs.Diagnostic.Snippets
