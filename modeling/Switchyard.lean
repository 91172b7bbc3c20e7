import Switchyard.Activity
import Switchyard.Binding.Basic
import Switchyard.Binding.Compile
import Switchyard.Binding.Resolve
import Switchyard.Cache
import Switchyard.Claims
import Switchyard.Console
import Switchyard.Decimal.Binary
import Switchyard.Decimal.Fixed
import Switchyard.Decimal.Layout
import Switchyard.Decimal.Power
import Switchyard.Decimal.Reader
import Switchyard.Decimal.Shortest
import Switchyard.Dispatcher
import Switchyard.Engine
import Switchyard.Expression.Evaluate
import Switchyard.Expression.Parser
import Switchyard.Expression.Token
import Switchyard.Expression.Tree
import Switchyard.Failure
import Switchyard.Fault
import Switchyard.Form.Checked
import Switchyard.Form.Field
import Switchyard.Gate
import Switchyard.Hook
import Switchyard.Journal
import Switchyard.Log
import Switchyard.Metrics
import Switchyard.Outputs
import Switchyard.Pipeline
import Switchyard.PipelineProblem
import Switchyard.PipelineTable
import Switchyard.Policy
import Switchyard.Proofs.Activity.Ends
import Switchyard.Proofs.Binding.Compilation
import Switchyard.Proofs.Binding.Correct
import Switchyard.Proofs.Binding.Interpretation
import Switchyard.Proofs.Cache.Sound
import Switchyard.Proofs.Dispatch.Course
import Switchyard.Proofs.Dispatch.Mediation
import Switchyard.Proofs.Dispatch.Promise
import Switchyard.Proofs.Engine.Escapes
import Switchyard.Proofs.Engine.Frame
import Switchyard.Proofs.Engine.Reference
import Switchyard.Proofs.Engine.RunIsFold
import Switchyard.Proofs.Expression.Closed
import Switchyard.Proofs.Failure.Telling
import Switchyard.Proofs.Pipeline.Checked
import Switchyard.Proofs.Value.Extension
import Switchyard.Proofs.Value.Record
import Switchyard.Report.Definition
import Switchyard.Report.Outcome
import Switchyard.Report.Settings
import Switchyard.Report.Trail
import Switchyard.Route
import Switchyard.Scope
import Switchyard.Settings.Basic
import Switchyard.Settings.Build
import Switchyard.Settings.Files
import Switchyard.Settings.Overlay
import Switchyard.Settings.Source
import Switchyard.Text.Blank
import Switchyard.Text.Digit
import Switchyard.Text.Letter
import Switchyard.Text.LetterCase
import Switchyard.Text.Printable
import Switchyard.Text.Quoted
import Switchyard.Text.Ranges
import Switchyard.Text.Sorted
import Switchyard.Units.Basic
import Switchyard.Units.Builtin
import Switchyard.Units.Catalog
import Switchyard.Units.Function
import Switchyard.Units.Probe
import Switchyard.Units.Sample
import Switchyard.Value.Basic
import Switchyard.Value.Snapshot
import Switchyard.Value.Store
import Switchyard.Value.Written
import Switchyard.World
import Switchyard.Yaml.Base64
import Switchyard.Yaml.Cursor
import Switchyard.Yaml.Data
import Switchyard.Yaml.Kind
import Switchyard.Yaml.Node
import Switchyard.Yaml.Scalar
import Switchyard.Yaml.Timestamp
import Switchyard.Yaml.Token
import Switchyard.Proofs.Expression.Grammar
import Switchyard.Proofs.Expression.Parsing
import Switchyard.Proofs.Expression.Lexing
import Switchyard.Proofs.Expression.Spelling
import Switchyard.Proofs.Binding.Rendering
import Switchyard.Proofs.Expression.Stray
import Switchyard.Proofs.Binding.Alike
import Switchyard.Proofs.Binding.Replacement
import Switchyard.Proofs.Settings.Malformed
import Switchyard.Proofs.Expression.Overrun
import Switchyard.Proofs.Engine.Failures
import Switchyard.Proofs.Settings.Served
import Switchyard.Proofs.Settings.Access
import Switchyard.Proofs.Activity.Pool
import Switchyard.Proofs.Dispatch.Isolation
import Switchyard.Proofs.Binding.Oblivious
import Switchyard.Proofs.Pipeline.Rebuild
import Switchyard.Proofs.Settings.Reload
import Switchyard.Proofs.Engine.Passage
import Switchyard.Proofs.Engine.Sight
import Switchyard.Proofs.Binding.Parts
import Switchyard.Proofs.Engine.Backward
import Switchyard.Proofs.Value.Reach
import Switchyard.Proofs.Engine.Stable
import Switchyard.Proofs.Expression.Names
import Switchyard.Proofs.Engine.Shorthand
import Switchyard.Proofs.Cache.History
import Switchyard.Proofs.Cache.Recency
import Switchyard.Proofs.Cache.Inclusion
import Switchyard.Proofs.Engine.CallingOff
import Switchyard.Proofs.Value.Likeness
import Switchyard.Proofs.Binding.Agreement
import Switchyard.Proofs.Failure.Likeness
import Switchyard.Proofs.Engine.Alone
import Switchyard.Proofs.Engine.ByConfig
import Switchyard.Proofs.Engine.Beside
import Switchyard.Proofs.Engine.Insertion
import Switchyard.Proofs.Cache.Transparency
import Switchyard.Proofs.Cache.Accounts
import Switchyard.Proofs.Engine.Inquiries
import Switchyard.Proofs.Pipeline.Reported
import Switchyard.Proofs.Activity.Share
import Switchyard.Proofs.Engine.History
import Switchyard.Proofs.Engine.Trail
import Switchyard.Proofs.Dispatch.Story
import Switchyard.Proofs.Dispatch.Trail
import Switchyard.Proofs.Activity.Visits
import Switchyard.Proofs.Dispatch.Accounts
import Switchyard.Proofs.Activity.Likeness
import Switchyard.Listener
import Switchyard.Listening
import Switchyard.Proofs.Engine.Heedless
import Switchyard.Proofs.Dispatch.Listened
import Switchyard.Proofs.Dispatch.Heedless
import Switchyard.Proofs.Dispatch.Disclosure
import Switchyard.Proofs.Dispatch.Listing
import Switchyard.Proofs.Units.Tables
import Switchyard.Proofs.Units.Registrations
import Switchyard.Proofs.Console.Memory
import Switchyard.Proofs.Console.Interleaving
import Switchyard.Proofs.Value.Change
import Switchyard.Proofs.Value.Held
import Switchyard.Proofs.Binding.Stored
import Switchyard.Proofs.Activity.Stop
import Switchyard.Proofs.Engine.Stateless
import Switchyard.Proofs.Engine.Stored
import Switchyard.Proofs.Dispatch.Stored
import Switchyard.Proofs.Dispatch.Literals
import Switchyard.Proofs.Claims.Granted
import Switchyard.Proofs.Gate.Monotone
import Switchyard.Proofs.Journal.Stamps
import Switchyard.Proofs.Units.Factories
import Switchyard.Proofs.Expression.Keys
import Switchyard.Proofs.Expression.Typing
import Switchyard.Proofs.Expression.Paths
import Switchyard.Proofs.Settings.Reports
import Switchyard.Proofs.Expression.Offence
import Switchyard.Proofs.Expression.Extent
import Switchyard.Proofs.Expression.Spacing
import Switchyard.Proofs.Settings.Overlaid
import Switchyard.Proofs.Dispatch.Attribution
import Switchyard.Proofs.Expression.Coverage
import Switchyard.Proofs.Units.Arguments
