import DialogueScript.Analysis.Check
import DialogueScript.Analysis.Diagnostic
import DialogueScript.Analysis.Occurrence
import DialogueScript.Command.Basic
import DialogueScript.Command.Json
import DialogueScript.Config.Basic
import DialogueScript.Config.Json
import DialogueScript.Console.Basic
import DialogueScript.Console.CommandLine
import DialogueScript.Console.Session
import DialogueScript.Console.Sink
import DialogueScript.Decimal.Binary
import DialogueScript.Decimal.Layout
import DialogueScript.Decimal.Read
import DialogueScript.Decimal.Shortest
import DialogueScript.File.Basic
import DialogueScript.File.Tree
import DialogueScript.Host
import DialogueScript.Interpreter.Basic
import DialogueScript.Interpreter.Builtin
import DialogueScript.Interpreter.Run
import DialogueScript.Json.Basic
import DialogueScript.Json.Number
import DialogueScript.Json.Printer
import DialogueScript.Json.Reader
import DialogueScript.Log.Filter
import DialogueScript.Log.Level
import DialogueScript.Log.Pattern
import DialogueScript.Main
import DialogueScript.ParseError
import DialogueScript.Parser.Cursor
import DialogueScript.Parser.Expression
import DialogueScript.Parser.Skip
import DialogueScript.Parser.Statement
import DialogueScript.Program.Arguments
import DialogueScript.Program.Launch
import DialogueScript.Program.ScriptCheck
import DialogueScript.Proofs.Analysis.Coverage
import DialogueScript.Proofs.Analysis.Exactness
import DialogueScript.Proofs.Analysis.Preorder
import DialogueScript.Proofs.Console.CommandLines
import DialogueScript.Proofs.Console.Interchange
import DialogueScript.Proofs.Console.Limits
import DialogueScript.Proofs.Console.Readings
import DialogueScript.Proofs.Console.Segments
import DialogueScript.Proofs.Console.Session
import DialogueScript.Proofs.Interpreter.Calls
import DialogueScript.Proofs.Interpreter.Choice
import DialogueScript.Proofs.Interpreter.Course
import DialogueScript.Proofs.Interpreter.Descent
import DialogueScript.Proofs.Interpreter.Dialogue
import DialogueScript.Proofs.Interpreter.Doubles
import DialogueScript.Proofs.Interpreter.Evolution
import DialogueScript.Proofs.Interpreter.Frames
import DialogueScript.Proofs.Interpreter.History
import DialogueScript.Proofs.Interpreter.Hosts
import DialogueScript.Proofs.Interpreter.Integers
import DialogueScript.Proofs.Interpreter.Isolation
import DialogueScript.Proofs.Interpreter.Moment
import DialogueScript.Proofs.Interpreter.Simulation
import DialogueScript.Proofs.Interpreter.Termination
import DialogueScript.Proofs.Interpreter.UnknownFunction
import DialogueScript.Proofs.Json.Lossless
import DialogueScript.Proofs.Parser.Acceptance
import DialogueScript.Proofs.Parser.Continuation
import DialogueScript.Proofs.Parser.Cutting
import DialogueScript.Proofs.Parser.Ending
import DialogueScript.Proofs.Parser.Expression
import DialogueScript.Proofs.Parser.Grammar
import DialogueScript.Proofs.Parser.Lockstep
import DialogueScript.Proofs.Parser.Machine
import DialogueScript.Proofs.Parser.Nesting
import DialogueScript.Proofs.Parser.Origins
import DialogueScript.Proofs.Parser.Program
import DialogueScript.Proofs.Parser.Progress
import DialogueScript.Proofs.Parser.Refinement
import DialogueScript.Proofs.Parser.Renumbering
import DialogueScript.Proofs.Parser.Skipping
import DialogueScript.Proofs.Parser.Statement
import DialogueScript.Proofs.Parser.Walk
import DialogueScript.Proofs.Parser.Words
import DialogueScript.Proofs.Printing.Lexing
import DialogueScript.Proofs.Printing.Pruned
import DialogueScript.Proofs.Printing.RoundTrip
import DialogueScript.Proofs.Printing.Source
import DialogueScript.Proofs.Scope.Agreement
import DialogueScript.Proofs.Scope.Assignment
import DialogueScript.Proofs.Scope.Chains
import DialogueScript.Proofs.Scope.Frames
import DialogueScript.Proofs.Scope.Functions
import DialogueScript.Proofs.Scope.Orderly
import DialogueScript.Proofs.Scope.Values
import DialogueScript.Proofs.Script.Callee
import DialogueScript.Proofs.Script.Composition
import DialogueScript.Proofs.Script.Declarations
import DialogueScript.Proofs.Script.Positions
import DialogueScript.Proofs.Script.Pruning
import DialogueScript.Proofs.Script.Spelling
import DialogueScript.Proofs.Token.Items
import DialogueScript.Proofs.Token.Numbers
import DialogueScript.Proofs.Token.Pieces
import DialogueScript.Proofs.Token.Verbatim
import DialogueScript.RuntimeError
import DialogueScript.Scope.Basic
import DialogueScript.Script.Basic
import DialogueScript.Script.Expr
import DialogueScript.Script.Json
import DialogueScript.Script.Stmt
import DialogueScript.Text.Ascii
import DialogueScript.Text.Blank
import DialogueScript.Text.Integer
import DialogueScript.Text.Letter
import DialogueScript.Text.Lines
import DialogueScript.Token.Basic
import DialogueScript.Token.Json
import DialogueScript.Token.Lexeme
import DialogueScript.Token.Lexer
import DialogueScript.Value.Basic
import DialogueScript.Value.Json
