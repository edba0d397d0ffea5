import Conform.Builder.Basic
import Conform.Builder.Compile
import Conform.Builder.Conflict
import Conform.Builder.Placement
import Conform.Calendar
import Conform.Configuration.Documents
import Conform.Configuration.Factory
import Conform.Configuration.Json
import Conform.Configuration.Names
import Conform.Configuration.References
import Conform.Configuration.Shapes
import Conform.Constraint.Basic
import Conform.Constraint.Builtin
import Conform.Constraint.Parameter
import Conform.Constraint.Table
import Conform.Declaration.ClassModel
import Conform.Declaration.ClassSchema
import Conform.Declaration.Hint
import Conform.Declaration.HintPool
import Conform.Declaration.Inference
import Conform.Fault
import Conform.Host
import Conform.Import
import Conform.Number.Binary64
import Conform.Number.Complex
import Conform.Number.Decimal
import Conform.Object
import Conform.Object.Reading
import Conform.Path
import Conform.Proofs.Acceptance
import Conform.Proofs.Agreeing
import Conform.Proofs.Binding
import Conform.Proofs.Blame
import Conform.Proofs.Bounds
import Conform.Proofs.Comparing
import Conform.Proofs.Compiled
import Conform.Proofs.Complaints
import Conform.Proofs.Configured
import Conform.Proofs.Conforming
import Conform.Proofs.Declared
import Conform.Proofs.Delegating
import Conform.Proofs.Dependencies
import Conform.Proofs.Described
import Conform.Proofs.Escaping
import Conform.Proofs.Failing
import Conform.Proofs.Hints
import Conform.Proofs.Holding
import Conform.Proofs.InTurn
import Conform.Proofs.Independence
import Conform.Proofs.Inferring
import Conform.Proofs.Inventory
import Conform.Proofs.Journals
import Conform.Proofs.Keeping
import Conform.Proofs.Landing
import Conform.Proofs.Leaves
import Conform.Proofs.Ledger
import Conform.Proofs.Legible
import Conform.Proofs.Levels
import Conform.Proofs.Likeness
import Conform.Proofs.Limits
import Conform.Proofs.Making
import Conform.Proofs.Numbering
import Conform.Proofs.Numeric
import Conform.Proofs.Ordering
import Conform.Proofs.Parity
import Conform.Proofs.Parts
import Conform.Proofs.Places
import Conform.Proofs.PlainData
import Conform.Proofs.Rearranging
import Conform.Proofs.Recording
import Conform.Proofs.Reference
import Conform.Proofs.Refusing
import Conform.Proofs.Registering
import Conform.Proofs.Relaxing
import Conform.Proofs.Renaming
import Conform.Proofs.Replacing
import Conform.Proofs.Reporting
import Conform.Proofs.Requests
import Conform.Proofs.Searching
import Conform.Proofs.Seeking
import Conform.Proofs.Selection
import Conform.Proofs.Straying
import Conform.Proofs.Unions
import Conform.Proofs.Unordered
import Conform.Proofs.Variants
import Conform.Proofs.WellFormed
import Conform.Recorder
import Conform.Refusal
import Conform.Regex.Basic
import Conform.Regex.Matcher
import Conform.Regex.Reader
import Conform.Rule
import Conform.Schema.Basic
import Conform.Schema.Description
import Conform.Schema.Reading
import Conform.Schema.Survey
import Conform.Schema.Visit
import Conform.Schema.Walk
import Conform.Session.Basic
import Conform.Session.Operations
import Conform.Session.Recorders
import Conform.Session.Requests
import Conform.Session.Tables
import Conform.Shape
import Conform.Text.Case
import Conform.Text.Classes
import Conform.Text.Printable
import Conform.Text.Quoted
import Conform.Text.Ranges
import Conform.Validation
import Conform.Value.Basic
import Conform.Value.Collection
import Conform.Value.Construct
import Conform.Value.Equality
import Conform.Value.Kind
import Conform.Value.Order
import Conform.Value.Subscript
import Conform.Value.Text
import Conform.Violation
