import Placement.Assignments
import Placement.Attempt
import Placement.Crash
import Placement.Decimal.Binary
import Placement.Decimal.Notation
import Placement.Decimal.Numeral
import Placement.Decimal.Shortest
import Placement.Dict
import Placement.Digest
import Placement.Dispatcher
import Placement.Engine
import Placement.Engine.Command
import Placement.Engine.Evaluation
import Placement.Engine.Identity
import Placement.Engine.Preload
import Placement.Experiment
import Placement.Experiment.Wire
import Placement.Expression
import Placement.Expression.Evaluation
import Placement.Expression.Fault
import Placement.Expression.Functions
import Placement.Expression.HostCall
import Placement.Expression.Lexeme
import Placement.Expression.Operators
import Placement.Expression.Source
import Placement.Expression.Token
import Placement.Expression.Traversal
import Placement.Expression.Wire
import Placement.Failure
import Placement.History
import Placement.Json
import Placement.Json.Printer
import Placement.Json.Reader
import Placement.Outcome
import Placement.Outcome.Wire
import Placement.Pattern
import Placement.Pattern.CharSet
import Placement.Pattern.Reader
import Placement.Property
import Placement.Property.Resolver
import Placement.Property.Wire
import Placement.Rule
import Placement.Rule.Evaluation
import Placement.Rule.Wire
import Placement.Store
import Placement.Text.Blank
import Placement.Text.Combining
import Placement.Text.Digit
import Placement.Text.Folding
import Placement.Text.Printable
import Placement.Text.Quoted
import Placement.Text.Ranges
import Placement.Text.Word
import Placement.Time.Calendar
import Placement.Time.Clock
import Placement.Time.Timestamp
import Placement.Value
import Placement.Value.Wire
import Placement.Version
import Placement.Waitlist
import Placement.Proofs.Assignments.Coherence
import Placement.Proofs.Assignments.Session
import Placement.Proofs.Assignments.Stickiness
import Placement.Proofs.Assignments.Reopening
import Placement.Proofs.Engine.Consistency
import Placement.Proofs.Engine.Identification
import Placement.Proofs.Engine.Composition
import Placement.Proofs.Engine.Reachable
import Placement.Proofs.Engine.Retrying
import Placement.Proofs.Expression.Grammar
import Placement.Proofs.Expression.Soundness
import Placement.Proofs.Expression.Completeness
import Placement.Proofs.Expression.Unambiguous
import Placement.Proofs.Expression.DepthLimit
import Placement.Proofs.Expression.Literals
import Placement.Proofs.Expression.Asking
import Placement.Proofs.Expression.Resolving
import Placement.Proofs.Expression.TwoPhases
import Placement.Proofs.Expression.Absorption
import Placement.Proofs.Dispatch.Waiting
import Placement.Proofs.Dispatch.Traffic
import Placement.Proofs.Dispatch.Accounts
import Placement.Proofs.Dispatch.Ownership
import Placement.Proofs.Dispatch.Joining
import Placement.Proofs.Dispatch.Invariant
import Placement.Proofs.Dispatch.Coalescing
import Placement.Proofs.Dispatch.Order
import Placement.Proofs.Decimal.Shortest
import Placement.Proofs.Decimal.Spelling
import Placement.Proofs.Wire.Printing
import Placement.Proofs.Dispatch.Keys
import Placement.Proofs.Wire.Doubles
import Placement.Proofs.Wire.Documents
import Placement.Proofs.Wire.Trees
import Placement.Proofs.Wire.Configurations
import Placement.Proofs.Engine.Conditions
import Placement.Proofs.Engine.Committing
import Placement.Proofs.Assignments.Likeness
import Placement.Proofs.Engine.Likeness
import Placement.Proofs.Dispatch.Calls
import Placement.Proofs.Dispatch.Unseen
import Placement.Proofs.Wire.Rereading
import Placement.Proofs.Engine.Agreement
import Placement.Proofs.Engine.Twins
import Placement.Proofs.Dispatch.Switching
import Placement.Proofs.Engine.Foresight
import Placement.Proofs.Experiment.Shares
import Placement.Proofs.Time.Months
import Placement.Proofs.Time.WholeMonths
import Placement.Proofs.Property.Meaning
import Placement.Proofs.Property.Answers
import Placement.Proofs.Engine.Preloading
import Placement.Proofs.Version.Precedence
import Placement.Proofs.Version.Spelling
import Placement.Proofs.Expression.Relations
import Placement.Proofs.Assignments.Adopting
import Placement.Proofs.Engine.EarlyTimes
import Placement.Proofs.Expression.Sameness
import Placement.Proofs.Expression.DistinctCalls
import Placement.Proofs.Expression.Connectives
import Placement.Proofs.Expression.WholeNumbers
import Placement.Proofs.Expression.Splitting
import Placement.Proofs.Expression.Layout
import Placement.Proofs.Expression.Signs
import Placement.Proofs.Expression.Filling
import Placement.Proofs.Wire.Values
import Placement.Proofs.Expression.Writing
import Placement.Proofs.Expression.Rebuilding
import Placement.Proofs.Expression.Levels
import Placement.Proofs.Expression.Readers
import Placement.Proofs.Expression.Bookkeeping
