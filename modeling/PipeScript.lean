import PipeScript.Main
import PipeScript.Proofs.Command.Binding
import PipeScript.Proofs.Command.Connectives
import PipeScript.Proofs.Command.FirstOccurrence
import PipeScript.Proofs.Command.Slices
import PipeScript.Proofs.Command.Sources
import PipeScript.Proofs.Command.SplitJoin
import PipeScript.Proofs.Command.Tables
import PipeScript.Proofs.Control.Bystanders
import PipeScript.Proofs.Control.Envelopes
import PipeScript.Proofs.Control.IfChain
import PipeScript.Proofs.Control.StoredInteger
import PipeScript.Proofs.Control.SwitchCase
import PipeScript.Proofs.Control.TryCatch
import PipeScript.Proofs.Decimal.Nearness
import PipeScript.Proofs.Decimal.Order
import PipeScript.Proofs.Decimal.Reading
import PipeScript.Proofs.Decimal.Whole
import PipeScript.Proofs.Json.Numerals
import PipeScript.Proofs.Json.Reading
import PipeScript.Proofs.Json.RoundTrip
import PipeScript.Proofs.Json.Scalars
import PipeScript.Proofs.Json.Settling
import PipeScript.Proofs.Json.Spelling
import PipeScript.Proofs.Loop.CommonTrace
import PipeScript.Proofs.Loop.Identity
import PipeScript.Proofs.Loop.ShortCircuit
import PipeScript.Proofs.Machine.Composition
import PipeScript.Proofs.Machine.Faults
import PipeScript.Proofs.Machine.Footprint
import PipeScript.Proofs.Machine.Invariants
import PipeScript.Proofs.Machine.Nesting
import PipeScript.Proofs.Machine.Programs
import PipeScript.Proofs.Machine.Progress
import PipeScript.Proofs.Machine.Relations
import PipeScript.Proofs.Number.Bounds
import PipeScript.Proofs.Number.Denotation
import PipeScript.Proofs.Number.Exact
import PipeScript.Proofs.Number.HostText
import PipeScript.Proofs.Number.IntegerText
import PipeScript.Proofs.Number.PlainText
import PipeScript.Proofs.Number.Rounding
import PipeScript.Proofs.Path.Addressing
import PipeScript.Proofs.Path.Creation
import PipeScript.Proofs.Path.Extension
import PipeScript.Proofs.Path.Frame
import PipeScript.Proofs.Path.Outcome
import PipeScript.Proofs.Path.Overwrite
import PipeScript.Proofs.Path.RoundTrip
import PipeScript.Proofs.Path.Settling
import PipeScript.Proofs.Pattern.FixedText
import PipeScript.Proofs.Pattern.Matching
import PipeScript.Proofs.Pattern.Quoting
import PipeScript.Proofs.Pattern.Substitution
import PipeScript.Proofs.Pipeline.Bars
import PipeScript.Proofs.Pipeline.Decomposition
import PipeScript.Proofs.Pipeline.Grammar
import PipeScript.Proofs.Pipeline.JsonArguments
import PipeScript.Proofs.Pipeline.Levels
import PipeScript.Proofs.Pipeline.Literals
import PipeScript.Proofs.Pipeline.Rendering
import PipeScript.Proofs.Pipeline.Unclosed
import PipeScript.Proofs.Session.Agreement
import PipeScript.Proofs.Store.FailedWrite
import PipeScript.Proofs.Store.LiveWrite
import PipeScript.Proofs.Store.ScalarTarget
import PipeScript.Proofs.Store.Sharing
import PipeScript.Proofs.Store.WriteSequence
import PipeScript.Proofs.Text.Cutting
import PipeScript.Proofs.Text.Filling
import PipeScript.Proofs.Text.Lines
import PipeScript.Proofs.Text.Placeholders
import PipeScript.Proofs.Value.LooseEquality
import PipeScript.Proofs.Yaml.Composing
import PipeScript.Proofs.Yaml.Documents
import PipeScript.Proofs.Yaml.Failing
import PipeScript.Proofs.Yaml.Scanning
import PipeScript.Proofs.Yaml.Tokens
import PipeScript.Proofs.Yaml.Values
