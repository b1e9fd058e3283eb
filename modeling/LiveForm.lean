import LiveForm.Calendar.Date
import LiveForm.Calendar.Moment
import LiveForm.Calendar.Reading
import LiveForm.Config.Basic
import LiveForm.Config.Load
import LiveForm.Config.Merge
import LiveForm.Digest
import LiveForm.FieldCheck
import LiveForm.Files.Document
import LiveForm.Files.Path
import LiveForm.Files.Tree
import LiveForm.Formula
import LiveForm.Graph.Basic
import LiveForm.Graph.Cycle
import LiveForm.Graph.Order
import LiveForm.History.Archive
import LiveForm.History.Basic
import LiveForm.History.Change
import LiveForm.Json.Basic
import LiveForm.Json.Reader
import LiveForm.Json.Writer
import LiveForm.Notice
import LiveForm.Number.Basic
import LiveForm.Number.Binary64
import LiveForm.Number.Decimal
import LiveForm.Pattern.Basic
import LiveForm.Pattern.Match
import LiveForm.Pattern.Parser
import LiveForm.Pattern.Search
import LiveForm.Proofs.Calendar.Reading
import LiveForm.Proofs.Config.Again
import LiveForm.Proofs.Config.Layers
import LiveForm.Proofs.Config.Merge
import LiveForm.Proofs.Config.Path
import LiveForm.Proofs.Field.Check
import LiveForm.Proofs.Field.Choice
import LiveForm.Proofs.Files.Document
import LiveForm.Proofs.Files.Tree
import LiveForm.Proofs.Formula.Account
import LiveForm.Proofs.Formula.Numeric
import LiveForm.Proofs.Formula.Total
import LiveForm.Proofs.Graph.Acyclic
import LiveForm.Proofs.Graph.Complete
import LiveForm.Proofs.Graph.Countdown
import LiveForm.Proofs.Graph.Descendants
import LiveForm.Proofs.Graph.Edge
import LiveForm.Proofs.Graph.Least
import LiveForm.Proofs.Graph.Problems
import LiveForm.Proofs.Graph.Reach
import LiveForm.Proofs.Graph.References
import LiveForm.Proofs.Graph.Topological
import LiveForm.Proofs.Graph.Unresolved
import LiveForm.Proofs.History.Attribute
import LiveForm.Proofs.History.Change
import LiveForm.Proofs.History.Detect
import LiveForm.Proofs.History.Keep
import LiveForm.Proofs.History.Patch
import LiveForm.Proofs.History.Reload
import LiveForm.Proofs.History.Run
import LiveForm.Proofs.History.Twin
import LiveForm.Proofs.History.Unchanged
import LiveForm.Proofs.Json.Canonical
import LiveForm.Proofs.Json.Legible
import LiveForm.Proofs.Json.Native
import LiveForm.Proofs.Json.Number
import LiveForm.Proofs.Json.Reading
import LiveForm.Proofs.Json.Text
import LiveForm.Proofs.Json.Writable
import LiveForm.Proofs.Number.Decimal
import LiveForm.Proofs.Number.Nearest
import LiveForm.Proofs.Result
import LiveForm.Proofs.Rule.Coherent
import LiveForm.Proofs.Rule.Deciding
import LiveForm.Proofs.Rule.Order
import LiveForm.Proofs.Schema.Accepted
import LiveForm.Proofs.Schema.FreeValue
import LiveForm.Proofs.Schema.Load
import LiveForm.Proofs.Schema.Native
import LiveForm.Proofs.Schema.Readable
import LiveForm.Proofs.Schema.Reordered
import LiveForm.Proofs.Schema.Reported
import LiveForm.Proofs.Schema.Reread
import LiveForm.Proofs.Schema.RoundTrip
import LiveForm.Proofs.Schema.Script
import LiveForm.Proofs.Session.Activation
import LiveForm.Proofs.Session.Alike
import LiveForm.Proofs.Session.Cascade
import LiveForm.Proofs.Session.Change
import LiveForm.Proofs.Session.Channel
import LiveForm.Proofs.Session.Checked
import LiveForm.Proofs.Session.Commute
import LiveForm.Proofs.Session.Computed
import LiveForm.Proofs.Session.Derived
import LiveForm.Proofs.Session.Flag
import LiveForm.Proofs.Session.Hearing
import LiveForm.Proofs.Session.Idle
import LiveForm.Proofs.Session.Judge
import LiveForm.Proofs.Session.Locality
import LiveForm.Proofs.Session.Observer
import LiveForm.Proofs.Session.Operation
import LiveForm.Proofs.Session.Pass
import LiveForm.Proofs.Session.Plan
import LiveForm.Proofs.Session.Reachable
import LiveForm.Proofs.Session.Recheck
import LiveForm.Proofs.Session.Reordered
import LiveForm.Proofs.Session.Repeat
import LiveForm.Proofs.Session.Restore
import LiveForm.Proofs.Session.Round
import LiveForm.Proofs.Session.Run
import LiveForm.Proofs.Session.Setter
import LiveForm.Proofs.Session.Settled
import LiveForm.Proofs.Session.Smooth
import LiveForm.Proofs.Session.Start
import LiveForm.Proofs.Session.Touch
import LiveForm.Proofs.Session.Twins
import LiveForm.Proofs.Session.Valid
import LiveForm.Proofs.Session.Visit
import LiveForm.Proofs.Session.Write
import LiveForm.Proofs.Value.Akin
import LiveForm.Proofs.Value.Decidable
import LiveForm.Proofs.Value.Entries
import LiveForm.Proofs.Value.Printable
import LiveForm.Proofs.Value.Rearranged
import LiveForm.Proofs.Value.Reflexive
import LiveForm.Proofs.Value.Symmetric
import LiveForm.Proofs.Value.Transitive
import LiveForm.Rule
import LiveForm.Schema.Basic
import LiveForm.Schema.Decode
import LiveForm.Schema.Encode
import LiveForm.Schema.FreeValue
import LiveForm.Schema.Load
import LiveForm.Schema.Report
import LiveForm.Session.Activation
import LiveForm.Session.Basic
import LiveForm.Session.Event
import LiveForm.Session.Listening
import LiveForm.Session.Propagation
import LiveForm.Session.State
import LiveForm.Table
import LiveForm.Text.Alphanumeric
import LiveForm.Text.Class
import LiveForm.Text.DecimalDigit
import LiveForm.Text.LowerCase
import LiveForm.Text.Search
import LiveForm.Text.Unprintable
import LiveForm.Typed
import LiveForm.Value.Basic
import LiveForm.Value.Integer
import LiveForm.Value.Literal
import LiveForm.Yaml.Cursor
import LiveForm.Yaml.Library
import LiveForm.Yaml.Literal
import LiveForm.Yaml.Node
import LiveForm.Yaml.Page
import LiveForm.Yaml.Quote
import LiveForm.Yaml.Scalar
import LiveForm.Yaml.Text
import LiveForm.Yaml.Token
