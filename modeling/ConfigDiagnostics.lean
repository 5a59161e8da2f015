import ConfigDiagnostics.Alternatives
import ConfigDiagnostics.Decimal.Binary64
import ConfigDiagnostics.Decimal.Layout
import ConfigDiagnostics.Decimal.Shortest
import ConfigDiagnostics.Dialect
import ConfigDiagnostics.Emission
import ConfigDiagnostics.Engine
import ConfigDiagnostics.Engine.Loop
import ConfigDiagnostics.Engine.Tally
import ConfigDiagnostics.EventName
import ConfigDiagnostics.Finding
import ConfigDiagnostics.Grouping
import ConfigDiagnostics.Host
import ConfigDiagnostics.Json.Compact
import ConfigDiagnostics.Json.Fault
import ConfigDiagnostics.Json.Reader
import ConfigDiagnostics.Json.Value
import ConfigDiagnostics.Keyword
import ConfigDiagnostics.Listing
import ConfigDiagnostics.Parameter
import ConfigDiagnostics.Pointer
import ConfigDiagnostics.Proofs.Answering
import ConfigDiagnostics.Proofs.Calls
import ConfigDiagnostics.Proofs.Capacity
import ConfigDiagnostics.Proofs.CompactText
import ConfigDiagnostics.Proofs.Course
import ConfigDiagnostics.Proofs.Decoding
import ConfigDiagnostics.Proofs.Emission
import ConfigDiagnostics.Proofs.EventGrammar
import ConfigDiagnostics.Proofs.EventLoop
import ConfigDiagnostics.Proofs.EventName
import ConfigDiagnostics.Proofs.Forwarding
import ConfigDiagnostics.Proofs.Grouping
import ConfigDiagnostics.Proofs.History
import ConfigDiagnostics.Proofs.Interleaving
import ConfigDiagnostics.Proofs.Isolation
import ConfigDiagnostics.Proofs.Joining
import ConfigDiagnostics.Proofs.Payload
import ConfigDiagnostics.Proofs.Positional
import ConfigDiagnostics.Proofs.Reachability
import ConfigDiagnostics.Proofs.Reading
import ConfigDiagnostics.Proofs.Record
import ConfigDiagnostics.Proofs.Refusals
import ConfigDiagnostics.Proofs.Registration
import ConfigDiagnostics.Proofs.Rendering
import ConfigDiagnostics.Proofs.Reordering
import ConfigDiagnostics.Proofs.RoundTrip
import ConfigDiagnostics.Proofs.Routing
import ConfigDiagnostics.Proofs.Script
import ConfigDiagnostics.Proofs.Simulation
import ConfigDiagnostics.Proofs.Spelling
import ConfigDiagnostics.Proofs.StablePartition
import ConfigDiagnostics.Proofs.Tally
import ConfigDiagnostics.Proofs.TemplateTable
import ConfigDiagnostics.Proofs.Validation
import ConfigDiagnostics.Proofs.Wire
import ConfigDiagnostics.Refusal
import ConfigDiagnostics.Registry
import ConfigDiagnostics.Registry.Sharing
import ConfigDiagnostics.Registry.Table
import ConfigDiagnostics.Rule
import ConfigDiagnostics.Settings
import ConfigDiagnostics.Shape.Mismatch
import ConfigDiagnostics.Shape.Record
import ConfigDiagnostics.Shape.Scalar
import ConfigDiagnostics.Sink.Answering
import ConfigDiagnostics.Sink.Attended
import ConfigDiagnostics.Sink.Basic
import ConfigDiagnostics.Sink.Collecting
import ConfigDiagnostics.Sink.Guarded
import ConfigDiagnostics.Sink.Hosted
import ConfigDiagnostics.Sink.Mailbox
import ConfigDiagnostics.Sink.Request
import ConfigDiagnostics.Template
import ConfigDiagnostics.Text.Extending
import ConfigDiagnostics.Text.Invisible
import ConfigDiagnostics.Text.Pattern
import ConfigDiagnostics.Text.Quoted
import ConfigDiagnostics.Verbosity
import ConfigDiagnostics.Violation
import ConfigDiagnostics.Violation.Wire
