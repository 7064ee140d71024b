import QuerySieve.Text
import QuerySieve.Text.Alphanumeric
import QuerySieve.Text.Decimal
import QuerySieve.Dict
import QuerySieve.Binary64
import QuerySieve.Json
import QuerySieve.Json.Printer
import QuerySieve.Json.Parser
import QuerySieve.Filter
import QuerySieve.Error
import QuerySieve.Problem
import QuerySieve.Naming
import QuerySieve.Schema
import QuerySieve.Schema.Path
import QuerySieve.Schema.Serialized
import QuerySieve.Json.Record
import QuerySieve.Compiler
import QuerySieve.Description
import QuerySieve.Sql.Query
import QuerySieve.Sql.Dialect
import QuerySieve.Settings
import QuerySieve.Planner
import QuerySieve.Search
import QuerySieve.Text.Hexadecimal
import QuerySieve.Text.Utf8
import QuerySieve.Text.Percent
import QuerySieve.QueryString
import QuerySieve.Url
import QuerySieve.Database.Address
import QuerySieve.Duration
import QuerySieve.Database
import QuerySieve.Logging
import QuerySieve.Logging.Router
import QuerySieve.FilePath
import QuerySieve.Yaml
import QuerySieve.Config
import QuerySieve.Explain
import QuerySieve.Storage.Scratch
import QuerySieve.Cli
import QuerySieve.Main
import QuerySieve.Proofs.Sql.Meaning
import QuerySieve.Proofs.Sql.Scope
import QuerySieve.Proofs.Sql.Entry
import QuerySieve.Proofs.Compilation
import QuerySieve.Proofs.Sql.Chain
import QuerySieve.Proofs.Sql.Selection
import QuerySieve.Proofs.Sql.PageTotal
import QuerySieve.Proofs.Access
import QuerySieve.Proofs.Paging
import QuerySieve.Proofs.EagerLoad.Batch
import QuerySieve.Proofs.EagerLoad.Siblings
import QuerySieve.Proofs.Checking
import QuerySieve.Proofs.Sql.Rendering
import QuerySieve.Proofs.Coercion
import QuerySieve.Proofs.Sql.Binding
import QuerySieve.Proofs.Graph.Reading
import QuerySieve.Proofs.Graph.RoundTrip
import QuerySieve.Proofs.Session
import QuerySieve.Proofs.Search
import QuerySieve.Proofs.Explain
import QuerySieve.Proofs.EagerLoad.Agreement
import QuerySieve.Proofs.Graph.Chains
import QuerySieve.Proofs.Graph.Grammar
import QuerySieve.Proofs.EagerLoad.Safety
import QuerySieve.Proofs.Sql.Aliases
import QuerySieve.Proofs.Serialized
import QuerySieve.Proofs.Typing
import QuerySieve.Proofs.Sql.Numbering
import QuerySieve.Proofs.Sql.Traversal
import QuerySieve.Proofs.Naming
import QuerySieve.Proofs.Graph.Union
import QuerySieve.Proofs.Graph.Entries
import QuerySieve.Proofs.Graph.Malformed
import QuerySieve.Proofs.Strictness
import QuerySieve.Proofs.EagerLoad.Distribution
import QuerySieve.Proofs.EagerLoad.Keys
import QuerySieve.Proofs.EagerLoad.Statements
import QuerySieve.Proofs.Window
import QuerySieve.Proofs.Validation
import QuerySieve.Proofs.Graph.Walks
import QuerySieve.Proofs.Filtering
import QuerySieve.Proofs.Sql.Identifiers
import QuerySieve.Proofs.Logging
import QuerySieve.Proofs.Verbosity
