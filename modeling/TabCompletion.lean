import TabCompletion.Completion.Candidate
import TabCompletion.Completion.Completer
import TabCompletion.Completion.Engine
import TabCompletion.Completion.ParsedValues
import TabCompletion.Completion.Request
import TabCompletion.Completion.Source
import TabCompletion.Config.Basic
import TabCompletion.Config.Form
import TabCompletion.Config.Load
import TabCompletion.Config.TomlForm
import TabCompletion.Document.Fields
import TabCompletion.Error
import TabCompletion.Explanation.Basic
import TabCompletion.Explanation.Report
import TabCompletion.Host.Basic
import TabCompletion.Host.FileSystem
import TabCompletion.Host.FileTree
import TabCompletion.Host.Path
import TabCompletion.Interface.Arguments
import TabCompletion.Interface.Basic
import TabCompletion.Interface.Parameter
import TabCompletion.Json.Fields
import TabCompletion.Json.Printer
import TabCompletion.Json.Reader
import TabCompletion.Json.Token
import TabCompletion.Json.Value
import TabCompletion.Line.Token
import TabCompletion.Line.Word
import TabCompletion.Main
import TabCompletion.Program.Interface
import TabCompletion.Program.Run
import TabCompletion.Proofs.Completion.Accepted
import TabCompletion.Proofs.Completion.Assigned
import TabCompletion.Proofs.Completion.Finished
import TabCompletion.Proofs.Completion.FlagNames
import TabCompletion.Proofs.Completion.Isolated
import TabCompletion.Proofs.Completion.Ordered
import TabCompletion.Proofs.Completion.Paths
import TabCompletion.Proofs.Completion.Ranking
import TabCompletion.Proofs.Completion.Sources
import TabCompletion.Proofs.Completion.Tail
import TabCompletion.Proofs.Completion.Typing
import TabCompletion.Proofs.Completion.Values
import TabCompletion.Proofs.Completion.ValuesOnly
import TabCompletion.Proofs.Config.TomlForm
import TabCompletion.Proofs.Json.Atoms
import TabCompletion.Proofs.Json.Fields
import TabCompletion.Proofs.Json.ReadBack
import TabCompletion.Proofs.Json.Tokens
import TabCompletion.Proofs.Line.Apart
import TabCompletion.Proofs.Line.Cursor
import TabCompletion.Proofs.Line.Layout
import TabCompletion.Proofs.Line.Noted
import TabCompletion.Proofs.Line.Orderly
import TabCompletion.Proofs.Line.Patches
import TabCompletion.Proofs.Line.Scan
import TabCompletion.Proofs.Line.Spelling
import TabCompletion.Proofs.Line.Tokens
import TabCompletion.Proofs.Line.UnderCursor
import TabCompletion.Proofs.Shell.Described
import TabCompletion.Proofs.Shell.Framing
import TabCompletion.Proofs.Shell.QuotedWords
import TabCompletion.Proofs.Shell.ReadBack
import TabCompletion.Proofs.Shell.Registration
import TabCompletion.Proofs.Shell.Requested
import TabCompletion.Proofs.Shell.Signs
import TabCompletion.Proofs.Shell.Wordbreaks
import TabCompletion.Proofs.Spec.Completers
import TabCompletion.Proofs.Spec.Defects
import TabCompletion.Proofs.Spec.FlagLike
import TabCompletion.Proofs.Spec.JsonForm
import TabCompletion.Proofs.Spec.Rewired
import TabCompletion.Proofs.Spec.Scope
import TabCompletion.Proofs.Spec.WellFormed
import TabCompletion.Proofs.Text.Cuts
import TabCompletion.Proofs.Text.Joins
import TabCompletion.Proofs.Toml.Texts
import TabCompletion.Proofs.Toml.Tokens
import TabCompletion.Proofs.Walk.Belonging
import TabCompletion.Proofs.Walk.Entered
import TabCompletion.Proofs.Walk.FlagTest
import TabCompletion.Proofs.Walk.Given
import TabCompletion.Proofs.Walk.History
import TabCompletion.Proofs.Walk.Move
import TabCompletion.Proofs.Walk.Occurrence
import TabCompletion.Proofs.Walk.Positionals
import TabCompletion.Proofs.Walk.Prediction
import TabCompletion.Proofs.Walk.Reachable
import TabCompletion.Proofs.Walk.Recorded
import TabCompletion.Proofs.Walk.Rewired
import TabCompletion.Proofs.Walk.Shorthand
import TabCompletion.Proofs.Walk.Terminator
import TabCompletion.Proofs.Walk.Verdict
import TabCompletion.Shell.Answer
import TabCompletion.Shell.Hook
import TabCompletion.Shell.Kind
import TabCompletion.Shell.Request
import TabCompletion.Spec.Action
import TabCompletion.Spec.Arity
import TabCompletion.Spec.Command
import TabCompletion.Spec.JsonForm
import TabCompletion.Spec.Load
import TabCompletion.Spec.Validation
import TabCompletion.Text.Alphanumeric
import TabCompletion.Text.Basic
import TabCompletion.Text.Blank
import TabCompletion.Text.CodeRanges
import TabCompletion.Text.Numeral
import TabCompletion.Text.Printable
import TabCompletion.Text.Quoted
import TabCompletion.Text.Table
import TabCompletion.Text.Visible
import TabCompletion.Text.Width
import TabCompletion.Toml.Printer
import TabCompletion.Toml.Reader
import TabCompletion.Toml.Scalar
import TabCompletion.Toml.Table
import TabCompletion.Toml.Token
import TabCompletion.Toml.Value
import TabCompletion.Walk.Context
import TabCompletion.Walk.State
