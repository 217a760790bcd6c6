import JsonExpect.Assertion.Basic
import JsonExpect.Assertion.Call
import JsonExpect.Assertion.Directive
import JsonExpect.Assertion.Shorthand
import JsonExpect.Binary64.Arithmetic
import JsonExpect.Binary64.Basic
import JsonExpect.Binary64.FixedPlaces
import JsonExpect.Binary64.Shortest
import JsonExpect.Case.Basic
import JsonExpect.Case.Folder
import JsonExpect.Case.Outcome
import JsonExpect.CommandLine.Arguments
import JsonExpect.CommandLine.Run
import JsonExpect.Console
import JsonExpect.FileTree.Basic
import JsonExpect.FileTree.Path
import JsonExpect.FileTree.Pattern
import JsonExpect.FileTree.Search
import JsonExpect.Json.Numeral
import JsonExpect.Json.Quoted
import JsonExpect.Json.Reader
import JsonExpect.Json.Token
import JsonExpect.Json.Writer
import JsonExpect.Library
import JsonExpect.Location
import JsonExpect.Main
import JsonExpect.Options.Description
import JsonExpect.Options.Node
import JsonExpect.Options.Setting
import JsonExpect.Path.Basic
import JsonExpect.Path.Error
import JsonExpect.Path.Parser
import JsonExpect.Path.Printer
import JsonExpect.Proofs.Assertion.Atomicity
import JsonExpect.Proofs.Assertion.Equality
import JsonExpect.Proofs.Assertion.Reordering
import JsonExpect.Proofs.Assertion.Scalars
import JsonExpect.Proofs.Assertion.Verdict
import JsonExpect.Proofs.Case.Folder
import JsonExpect.Proofs.Case.Outcome
import JsonExpect.Proofs.Case.Verdict
import JsonExpect.Proofs.CommandLine.Run
import JsonExpect.Proofs.FileTree.Path
import JsonExpect.Proofs.FileTree.Search
import JsonExpect.Proofs.Json.Lexing
import JsonExpect.Proofs.Json.Reader
import JsonExpect.Proofs.Json.RoundTrip
import JsonExpect.Proofs.Options.Coherence
import JsonExpect.Proofs.Options.Commutation
import JsonExpect.Proofs.Options.Log
import JsonExpect.Proofs.Options.Navigation
import JsonExpect.Proofs.Options.Redundancy
import JsonExpect.Proofs.Path.Bracket
import JsonExpect.Proofs.Path.Composition
import JsonExpect.Proofs.Path.Escape
import JsonExpect.Proofs.Path.Failure
import JsonExpect.Proofs.Path.Location
import JsonExpect.Proofs.Path.Root
import JsonExpect.Proofs.Path.RoundTrip
import JsonExpect.Proofs.Path.Segment
import JsonExpect.Proofs.Rule.Format
import JsonExpect.Proofs.Rule.Replay
import JsonExpect.Proofs.Selector.Laws
import JsonExpect.Proofs.Validation.Acceptance
import JsonExpect.Proofs.Validation.Admission
import JsonExpect.Proofs.Validation.AnyOrder
import JsonExpect.Proofs.Validation.Constraints
import JsonExpect.Proofs.Validation.Exactness
import JsonExpect.Proofs.Validation.Findings
import JsonExpect.Proofs.Validation.KeyOrder
import JsonExpect.Proofs.Validation.Matching
import JsonExpect.Proofs.Validation.Obstruction
import JsonExpect.Proofs.Validation.Relaxation
import JsonExpect.Proofs.Validation.Snapshot
import JsonExpect.Proofs.Validation.Totality
import JsonExpect.Proofs.Validation.Transitivity
import JsonExpect.Proofs.Validation.Violation
import JsonExpect.Proofs.Value.Canonical
import JsonExpect.Proofs.Value.Document
import JsonExpect.Proofs.Value.Entries
import JsonExpect.Proofs.Value.Reordering
import JsonExpect.Proofs.Value.Sameness
import JsonExpect.Proofs.Value.Walk
import JsonExpect.Proofs.Yields
import JsonExpect.Report
import JsonExpect.Rule.Basic
import JsonExpect.Rule.File
import JsonExpect.Selector.Basic
import JsonExpect.Selector.Library
import JsonExpect.Selector.Naming
import JsonExpect.Selector.Parser
import JsonExpect.Selector.Search
import JsonExpect.Selector.Token
import JsonExpect.Text.Digit
import JsonExpect.Text.Printable
import JsonExpect.Text.Surrogate
import JsonExpect.Validation.Comparison
import JsonExpect.Validation.Constraints
import JsonExpect.Validation.Failure
import JsonExpect.Validation.Findings
import JsonExpect.Validation.Validate
import JsonExpect.Value.Basic
import JsonExpect.Value.Canonical
import JsonExpect.Value.Literal
import JsonExpect.Value.Moment
import JsonExpect.Value.Snapshot
import JsonExpect.Yaml.Base64
import JsonExpect.Yaml.Cursor
import JsonExpect.Yaml.Document
import JsonExpect.Yaml.Fault
import JsonExpect.Yaml.Folded
import JsonExpect.Yaml.Label
import JsonExpect.Yaml.Library
import JsonExpect.Yaml.Node.Basic
import JsonExpect.Yaml.Node.Contents
import JsonExpect.Yaml.Node.Parser
import JsonExpect.Yaml.Number
import JsonExpect.Yaml.Plain
import JsonExpect.Yaml.Quoted
import JsonExpect.Yaml.Scalar
import JsonExpect.Yaml.Timestamp
import JsonExpect.Yaml.Token.Basic
import JsonExpect.Yaml.Token.Lexer
import JsonExpect.Yaml.Verbatim
