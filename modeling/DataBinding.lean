import DataBinding.Attribute
import DataBinding.Binding
import DataBinding.Config
import DataBinding.Converters
import DataBinding.Decimal.Binary
import DataBinding.Decimal.Layout
import DataBinding.Decimal.Reading
import DataBinding.Decimal.Shortest
import DataBinding.Error
import DataBinding.Evaluation
import DataBinding.Expr
import DataBinding.Expr.Decoding
import DataBinding.Expr.Encoding
import DataBinding.Expr.Rebase
import DataBinding.Expr.Validity
import DataBinding.Identity
import DataBinding.Instruction
import DataBinding.Json
import DataBinding.Json.Numeral
import DataBinding.Json.Printer
import DataBinding.Json.Reader
import DataBinding.Json.Record
import DataBinding.Json.Token
import DataBinding.Listeners
import DataBinding.Object
import DataBinding.Observations
import DataBinding.Observer
import DataBinding.Operator
import DataBinding.Registry
import DataBinding.Scope
import DataBinding.Session
import DataBinding.Session.Change
import DataBinding.Session.Command
import DataBinding.Session.Execute
import DataBinding.Session.Holding
import DataBinding.Session.Lookup
import DataBinding.Session.Reply
import DataBinding.Session.Run
import DataBinding.Session.Snapshot
import DataBinding.Source
import DataBinding.Store
import DataBinding.Stream
import DataBinding.Table
import DataBinding.Text.Alphanumeric
import DataBinding.Text.Blank
import DataBinding.Text.UpperCase
import DataBinding.Transcript
import DataBinding.Value
import DataBinding.View
import DataBinding.Proofs.Answers
import DataBinding.Proofs.EvaluationRules
import DataBinding.Proofs.Opening
import DataBinding.Proofs.Held
import DataBinding.Proofs.Moves
import DataBinding.Proofs.Moves.Evaluate
import DataBinding.Proofs.Moves.Execute
import DataBinding.Proofs.RebaseMeaning
import DataBinding.Proofs.RebaseNodes
import DataBinding.Proofs.Deliveries
import DataBinding.Proofs.LatestValue
import DataBinding.Proofs.Rebinding
import DataBinding.Proofs.Assignment
import DataBinding.Proofs.Dependencies
import DataBinding.Proofs.Balance
import DataBinding.Proofs.Upkeep
import DataBinding.Proofs.Ledger
import DataBinding.Proofs.ActiveSinks
import DataBinding.Proofs.Confined
import DataBinding.Proofs.FanOut
import DataBinding.Proofs.Evaluations
import DataBinding.Proofs.Heeds
import DataBinding.Proofs.Heeds.Execute
import DataBinding.Proofs.UpToDate
import DataBinding.Proofs.Outcomes
import DataBinding.Proofs.SinkEvents
import DataBinding.Proofs.BindingHistory
import DataBinding.Proofs.ObjectHistory
import DataBinding.Proofs.ChangePairs
import DataBinding.Proofs.Shutdown
import DataBinding.Proofs.Clearing
import DataBinding.Proofs.Turns
import DataBinding.Proofs.BoundWrites
import DataBinding.Proofs.Entering
import DataBinding.Proofs.Rounds
import DataBinding.Proofs.LastErrors
import DataBinding.Proofs.ExactRecords
import DataBinding.Proofs.Turnover
import DataBinding.Proofs.LettingGo
import DataBinding.Proofs.Openings
import DataBinding.Proofs.Attendance
import DataBinding.Proofs.Upholding
import DataBinding.Proofs.ReleasedOnce
import DataBinding.Proofs.Interchange
import DataBinding.Proofs.Unfailing
import DataBinding.Proofs.ExpressionText
import DataBinding.Proofs.Recast
import DataBinding.Proofs.AlikeRegistries
import DataBinding.Proofs.Twins
import DataBinding.Proofs.Twins.Evaluate
import DataBinding.Proofs.Twins.React
import DataBinding.Proofs.Twins.Execute
import DataBinding.Proofs.PruneThreshold
import DataBinding.Proofs.FailedUpdates
import DataBinding.Proofs.Bystanders
import DataBinding.Proofs.FailedBinds
import DataBinding.Proofs.FirstOffence
import DataBinding.Proofs.RebaseTwice
import DataBinding.Proofs.OneWrite
import DataBinding.Proofs.BoundScopes
import DataBinding.Proofs.Inquiry
import DataBinding.Proofs.LeafOnly
import DataBinding.Proofs.Unread
import DataBinding.Proofs.ReadBack
import DataBinding.Proofs.Presence
import DataBinding.Proofs.Footprint
import DataBinding.Proofs.EqualValues
import DataBinding.Proofs.SilentWrites
import DataBinding.Proofs.StreamFree
import DataBinding.Proofs.LastListener
import DataBinding.Proofs.Uninvolved
import DataBinding.Proofs.SinkHandles
import DataBinding.Proofs.SubjectCalls
import DataBinding.Proofs.SubjectTraces
import DataBinding.Proofs.Resolution
import DataBinding.Proofs.OneCall
import DataBinding.Proofs.Lifecycle
import DataBinding.Proofs.RegistrySize
import DataBinding.Proofs.RegistryUses
import DataBinding.Proofs.IntegerArithmetic
import DataBinding.Proofs.Rounding
import DataBinding.Proofs.IntegerComparison
import DataBinding.Proofs.JsonBridge
import DataBinding.Proofs.NumberReading
import DataBinding.Proofs.FloatText
import DataBinding.Proofs.Spellings
import DataBinding.Proofs.AttributeNames
import DataBinding.Proofs.CamelCase
