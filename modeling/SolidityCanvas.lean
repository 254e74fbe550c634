import SolidityCanvas.Arrangement
import SolidityCanvas.Cache
import SolidityCanvas.Canvas.Basic
import SolidityCanvas.Canvas.Component
import SolidityCanvas.Canvas.Edit
import SolidityCanvas.Canvas.Json
import SolidityCanvas.Canvas.Load
import SolidityCanvas.Catalog.Basic
import SolidityCanvas.Catalog.Category
import SolidityCanvas.Catalog.Definition
import SolidityCanvas.Catalog.Listing
import SolidityCanvas.Catalog.Load
import SolidityCanvas.Catalog.Standard
import SolidityCanvas.Catalog.Template
import SolidityCanvas.Client
import SolidityCanvas.CommandLine
import SolidityCanvas.CommandLine.Option
import SolidityCanvas.CommandLine.Value
import SolidityCanvas.Compiler
import SolidityCanvas.Compiler.Json
import SolidityCanvas.Config.Analysis
import SolidityCanvas.Config.Decode
import SolidityCanvas.Config.Eval
import SolidityCanvas.Config.Expr
import SolidityCanvas.Config.Fault
import SolidityCanvas.Config.Function
import SolidityCanvas.Config.Function.Format
import SolidityCanvas.Config.Function.Library
import SolidityCanvas.Config.Parser
import SolidityCanvas.Config.Template
import SolidityCanvas.Config.Token
import SolidityCanvas.Config.TypeExpr
import SolidityCanvas.Contract.Document
import SolidityCanvas.Contract.Interface
import SolidityCanvas.Contract.InterfaceView
import SolidityCanvas.Contract.Json
import SolidityCanvas.Diagnostic
import SolidityCanvas.FileTree
import SolidityCanvas.Graph
import SolidityCanvas.Hash.Keccak
import SolidityCanvas.Http.Basic
import SolidityCanvas.Http.Url
import SolidityCanvas.Json.Basic
import SolidityCanvas.Json.Fields
import SolidityCanvas.Json.Reader
import SolidityCanvas.Json.Writer
import SolidityCanvas.Main
import SolidityCanvas.Number.Basic
import SolidityCanvas.Number.Decimal
import SolidityCanvas.Number.Double
import SolidityCanvas.Number.Literal
import SolidityCanvas.Number.Styled
import SolidityCanvas.Program
import SolidityCanvas.Project
import SolidityCanvas.Proofs.Arrangement.Agreement
import SolidityCanvas.Proofs.Arrangement.Conflicts
import SolidityCanvas.Proofs.Arrangement.Identity
import SolidityCanvas.Proofs.Arrangement.Links
import SolidityCanvas.Proofs.Arrangement.Order
import SolidityCanvas.Proofs.Arrangement.Precedence
import SolidityCanvas.Proofs.Arrangement.Redrawn
import SolidityCanvas.Proofs.Arrangement.Total
import SolidityCanvas.Proofs.Arrangement.Types
import SolidityCanvas.Proofs.Arrangement.Variables
import SolidityCanvas.Proofs.Basic
import SolidityCanvas.Proofs.Canvas.Components
import SolidityCanvas.Proofs.Canvas.Configured
import SolidityCanvas.Proofs.Canvas.Content
import SolidityCanvas.Proofs.Canvas.Distinct
import SolidityCanvas.Proofs.Canvas.Editing
import SolidityCanvas.Proofs.Canvas.Hashed
import SolidityCanvas.Proofs.Canvas.Parts
import SolidityCanvas.Proofs.Canvas.Reading
import SolidityCanvas.Proofs.Canvas.Reformed
import SolidityCanvas.Proofs.Canvas.Renaming
import SolidityCanvas.Proofs.Canvas.Rewritten
import SolidityCanvas.Proofs.Canvas.RoundTrip
import SolidityCanvas.Proofs.Canvas.Shown
import SolidityCanvas.Proofs.Catalog.Anonymous
import SolidityCanvas.Proofs.Catalog.Build
import SolidityCanvas.Proofs.Catalog.Coherent
import SolidityCanvas.Proofs.Catalog.Contents
import SolidityCanvas.Proofs.Catalog.Extension
import SolidityCanvas.Proofs.Catalog.FunctionTemplate
import SolidityCanvas.Proofs.Catalog.Functions
import SolidityCanvas.Proofs.Catalog.Invariant
import SolidityCanvas.Proofs.Catalog.Lines
import SolidityCanvas.Proofs.Catalog.Regular
import SolidityCanvas.Proofs.Catalog.Relinked
import SolidityCanvas.Proofs.Catalog.Schema
import SolidityCanvas.Proofs.Catalog.Scope
import SolidityCanvas.Proofs.Catalog.Standard
import SolidityCanvas.Proofs.Client.Submission
import SolidityCanvas.Proofs.Compiler.Deletion
import SolidityCanvas.Proofs.Compiler.Extension
import SolidityCanvas.Proofs.Compiler.Identity
import SolidityCanvas.Proofs.Compiler.Keys
import SolidityCanvas.Proofs.Compiler.Memory
import SolidityCanvas.Proofs.Compiler.Reordering
import SolidityCanvas.Proofs.Compiler.Transparency
import SolidityCanvas.Proofs.Compiler.Written
import SolidityCanvas.Proofs.Config.Calls
import SolidityCanvas.Proofs.Config.Definite
import SolidityCanvas.Proofs.Config.Kinds
import SolidityCanvas.Proofs.Config.Lookup
import SolidityCanvas.Proofs.Config.Proper
import SolidityCanvas.Proofs.Config.Texts
import SolidityCanvas.Proofs.Config.Variables
import SolidityCanvas.Proofs.Contract.Cost
import SolidityCanvas.Proofs.Contract.Emission
import SolidityCanvas.Proofs.Contract.Expansion
import SolidityCanvas.Proofs.Contract.Interface
import SolidityCanvas.Proofs.Contract.Layout
import SolidityCanvas.Proofs.Contract.Names
import SolidityCanvas.Proofs.Contract.ReadBack
import SolidityCanvas.Proofs.Contract.Reading
import SolidityCanvas.Proofs.Contract.Selectors
import SolidityCanvas.Proofs.Graph.Basic
import SolidityCanvas.Proofs.Graph.Cycles
import SolidityCanvas.Proofs.Graph.Growth
import SolidityCanvas.Proofs.Graph.Order
import SolidityCanvas.Proofs.Graph.Renaming
import SolidityCanvas.Proofs.Graph.Sort
import SolidityCanvas.Proofs.Hash.Keccak
import SolidityCanvas.Proofs.Json.Carried
import SolidityCanvas.Proofs.Json.Indented
import SolidityCanvas.Proofs.Json.Reading
import SolidityCanvas.Proofs.Json.Written
import SolidityCanvas.Proofs.Number.Digits
import SolidityCanvas.Proofs.Number.Display
import SolidityCanvas.Proofs.Number.Doubles
import SolidityCanvas.Proofs.Number.Expansion
import SolidityCanvas.Proofs.Number.ReadBack
import SolidityCanvas.Proofs.Number.Rounding
import SolidityCanvas.Proofs.Number.Shortest
import SolidityCanvas.Proofs.Number.Spelling
import SolidityCanvas.Proofs.Property.Binding
import SolidityCanvas.Proofs.Property.Encoding
import SolidityCanvas.Proofs.Property.Typed
import SolidityCanvas.Proofs.Queue
import SolidityCanvas.Proofs.Server.Headers
import SolidityCanvas.Proofs.Server.History
import SolidityCanvas.Proofs.Server.Messages
import SolidityCanvas.Proofs.Server.Posts
import SolidityCanvas.Proofs.Session.Agreement
import SolidityCanvas.Proofs.Session.Forgetting
import SolidityCanvas.Proofs.Solidity.Declaration
import SolidityCanvas.Proofs.Solidity.Elementary
import SolidityCanvas.Proofs.Solidity.Grammar
import SolidityCanvas.Proofs.Solidity.Identifiers
import SolidityCanvas.Proofs.Text.Bytes
import SolidityCanvas.Proofs.Text.Distinct
import SolidityCanvas.Proofs.Text.Joined
import SolidityCanvas.Proofs.Text.Normal
import SolidityCanvas.Proofs.Text.PrefixFree
import SolidityCanvas.Proofs.Text.Words
import SolidityCanvas.Proofs.Timestamp.RoundTrip
import SolidityCanvas.Proofs.Validation.Collisions
import SolidityCanvas.Proofs.Validation.Findings
import SolidityCanvas.Proofs.Validation.Verdict
import SolidityCanvas.Proofs.Value.Canonical
import SolidityCanvas.Proofs.Value.Coercion
import SolidityCanvas.Proofs.Value.Definite
import SolidityCanvas.Proofs.Value.Named
import SolidityCanvas.Proofs.Value.Reading
import SolidityCanvas.Proofs.Value.Shown
import SolidityCanvas.Property.Bag
import SolidityCanvas.Property.Bind
import SolidityCanvas.Property.Plain
import SolidityCanvas.Property.Schema
import SolidityCanvas.Queue
import SolidityCanvas.Server
import SolidityCanvas.Server.Message
import SolidityCanvas.Session
import SolidityCanvas.Settings
import SolidityCanvas.Solidity.AbiType
import SolidityCanvas.Solidity.Literal
import SolidityCanvas.Solidity.Name
import SolidityCanvas.Solidity.TypeName
import SolidityCanvas.Text.Canonical
import SolidityCanvas.Text.Case
import SolidityCanvas.Text.Cluster
import SolidityCanvas.Text.Columns
import SolidityCanvas.Text.Letter
import SolidityCanvas.Text.Normal
import SolidityCanvas.Text.Printable
import SolidityCanvas.Text.Quoted
import SolidityCanvas.Text.Ranges
import SolidityCanvas.Text.Split
import SolidityCanvas.Timestamp
import SolidityCanvas.Validation
import SolidityCanvas.Value.Basic
import SolidityCanvas.Value.Coerce
import SolidityCanvas.Value.Convert
import SolidityCanvas.Value.Display
import SolidityCanvas.Value.Json
import SolidityCanvas.Value.Type
import SolidityCanvas.Yaml
import SolidityCanvas.Yaml.Scalar
