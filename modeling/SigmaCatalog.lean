import SigmaCatalog.Command.Arguments
import SigmaCatalog.Command.FileFault
import SigmaCatalog.Command.Job
import SigmaCatalog.Compilation
import SigmaCatalog.CompiledRule
import SigmaCatalog.Decimal.Binary64
import SigmaCatalog.Decimal.Notation
import SigmaCatalog.Decimal.Shortest
import SigmaCatalog.Digest.Sha1
import SigmaCatalog.FieldMapping
import SigmaCatalog.Gate
import SigmaCatalog.Gate.Use
import SigmaCatalog.IndexSchema
import SigmaCatalog.Indexing.Error
import SigmaCatalog.Indexing.Request
import SigmaCatalog.Indexing.Run
import SigmaCatalog.Indexing.Service
import SigmaCatalog.Indexing.TwoPass
import SigmaCatalog.Json.Basic
import SigmaCatalog.Json.Parser
import SigmaCatalog.Json.Pretty
import SigmaCatalog.Json.Printer
import SigmaCatalog.Json.Token
import SigmaCatalog.Main
import SigmaCatalog.Notice
import SigmaCatalog.Program
import SigmaCatalog.Program.Trace
import SigmaCatalog.Proofs.FieldMapping
import SigmaCatalog.Proofs.Gate.Outcome
import SigmaCatalog.Proofs.Gate.Standing
import SigmaCatalog.Proofs.Indexing.Concurrency
import SigmaCatalog.Proofs.Indexing.Coverage
import SigmaCatalog.Proofs.Indexing.Filing
import SigmaCatalog.Proofs.Indexing.Ledger
import SigmaCatalog.Proofs.Indexing.Order
import SigmaCatalog.Proofs.Indexing.Run
import SigmaCatalog.Proofs.Indexing.TwoPass
import SigmaCatalog.Proofs.Program.Trace
import SigmaCatalog.Proofs.Query.Course
import SigmaCatalog.Proofs.Query.Outcome
import SigmaCatalog.Proofs.Query.ReadBack
import SigmaCatalog.Proofs.Query.Renaming
import SigmaCatalog.Proofs.Query.Selection
import SigmaCatalog.Proofs.Query.Sentence
import SigmaCatalog.Proofs.Query.Shape
import SigmaCatalog.Proofs.Query.Truth
import SigmaCatalog.Proofs.Query.Words
import SigmaCatalog.Proofs.Rest.Addressing
import SigmaCatalog.Proofs.Rest.Path
import SigmaCatalog.Proofs.Rule.Bodies
import SigmaCatalog.Proofs.Rule.ConditionParser
import SigmaCatalog.Proofs.Rule.Detection
import SigmaCatalog.Proofs.Rule.Reporting
import SigmaCatalog.Proofs.Rule.Retention
import SigmaCatalog.Proofs.Store.Attempts
import SigmaCatalog.Proofs.Store.CompareAndSet
import SigmaCatalog.Proofs.Store.Keeping
import SigmaCatalog.Proofs.Store.Memory
import SigmaCatalog.Proofs.Store.Merging
import SigmaCatalog.Proofs.Store.Reaching
import SigmaCatalog.Proofs.Store.Running
import SigmaCatalog.Proofs.Store.Schedule
import SigmaCatalog.Proofs.Store.WriteBack
import SigmaCatalog.Proofs.Table
import SigmaCatalog.Proofs.Text.Normal
import SigmaCatalog.Query.Clause
import SigmaCatalog.Query.Conversion
import SigmaCatalog.Query.Escape
import SigmaCatalog.Query.Grammar
import SigmaCatalog.Query.Meaning
import SigmaCatalog.Query.Reader
import SigmaCatalog.Query.Selection
import SigmaCatalog.Query.Term
import SigmaCatalog.Query.TermReader
import SigmaCatalog.Reading
import SigmaCatalog.Rehearsal.Fault
import SigmaCatalog.Rehearsal.Files
import SigmaCatalog.Rehearsal.Session
import SigmaCatalog.Rehearsal.World
import SigmaCatalog.Rest.Address
import SigmaCatalog.Rest.Host
import SigmaCatalog.Rest.Path
import SigmaCatalog.Rest.Path.Decoding
import SigmaCatalog.Rest.Request
import SigmaCatalog.Rest.Response
import SigmaCatalog.Rest.Server
import SigmaCatalog.Rule.Basic
import SigmaCatalog.Rule.Condition
import SigmaCatalog.Rule.Condition.Grammar
import SigmaCatalog.Rule.Condition.Parser
import SigmaCatalog.Rule.Condition.Printer
import SigmaCatalog.Rule.Detection
import SigmaCatalog.Rule.Detection.Fields
import SigmaCatalog.Rule.Header
import SigmaCatalog.Rule.Item
import SigmaCatalog.Rule.Level
import SigmaCatalog.Rule.Modifier
import SigmaCatalog.Rule.NamePattern
import SigmaCatalog.Rule.Pattern
import SigmaCatalog.Rule.Pattern.Matching
import SigmaCatalog.Rule.Problem
import SigmaCatalog.Rule.Reader
import SigmaCatalog.Settings.Basic
import SigmaCatalog.Settings.Dotenv
import SigmaCatalog.Store.Acknowledgement
import SigmaCatalog.Store.Call
import SigmaCatalog.Store.Document
import SigmaCatalog.Store.Error
import SigmaCatalog.Store.Fleet
import SigmaCatalog.Store.MappingKeeper
import SigmaCatalog.Store.Memory
import SigmaCatalog.Store.Memory.Handler
import SigmaCatalog.Store.Readiness
import SigmaCatalog.Store.Refresh
import SigmaCatalog.Table
import SigmaCatalog.Text.Base64
import SigmaCatalog.Text.Blank
import SigmaCatalog.Text.Case
import SigmaCatalog.Text.Quoted
import SigmaCatalog.Text.Splitting
import SigmaCatalog.Text.Visible
import SigmaCatalog.Uuid
import SigmaCatalog.Yaml.Diagnostic
import SigmaCatalog.Yaml.Document
import SigmaCatalog.Yaml.Node
import SigmaCatalog.Yaml.Node.Assembly
import SigmaCatalog.Yaml.Problem
import SigmaCatalog.Yaml.Scalar.Block
import SigmaCatalog.Yaml.Scalar.Folding
import SigmaCatalog.Yaml.Scalar.Resolution
import SigmaCatalog.Yaml.Spot
import SigmaCatalog.Yaml.Token
import SigmaCatalog.Yaml.Token.Lexer
import SigmaCatalog.Yaml.Token.Property
import SigmaCatalog.Yaml.Value
import SigmaCatalog.Proofs.Store.Readiness
import SigmaCatalog.Proofs.Store.Contention
import SigmaCatalog.Proofs.Indexing.Independence
import SigmaCatalog.Proofs.Json.ReadBack
import SigmaCatalog.Proofs.Rest.Requests
import SigmaCatalog.Proofs.Rest.Replies
import SigmaCatalog.Proofs.Rest.Conversation
import SigmaCatalog.Proofs.Query.Regex
import SigmaCatalog.Proofs.Query.Values
import SigmaCatalog.Proofs.Rule.Rendering
import SigmaCatalog.Proofs.Store.Creation
import SigmaCatalog.Rule.Condition.Derivation
import SigmaCatalog.Proofs.Query.Inventory
import SigmaCatalog.Proofs.Query.Modifiers
import SigmaCatalog.Proofs.Rule.Modifiers
import SigmaCatalog.Proofs.Rest.Changes
import SigmaCatalog.Proofs.Rest.Revisions
import SigmaCatalog.Proofs.Rule.NamePattern
import SigmaCatalog.Proofs.Settings.Profiles
import SigmaCatalog.Proofs.Indexing.Removal
import SigmaCatalog.Proofs.Text.Numeral
import SigmaCatalog.Proofs.Decimal.Whole
import SigmaCatalog.Proofs.Query.Integers
import SigmaCatalog.Proofs.Rule.Spelling
