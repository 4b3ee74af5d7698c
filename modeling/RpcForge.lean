import RpcForge.Client.Call
import RpcForge.Client.Choice
import RpcForge.Client.Plan
import RpcForge.Client.TypeExpr
import RpcForge.Code.Writer
import RpcForge.Decimal.Double
import RpcForge.Decimal.Shortest
import RpcForge.Document.Basic
import RpcForge.Document.Components
import RpcForge.Document.Descriptor
import RpcForge.Document.Error
import RpcForge.Document.Extensions
import RpcForge.Document.Grammar
import RpcForge.Document.Info
import RpcForge.Document.Method
import RpcForge.Document.Reference
import RpcForge.Document.Schema.Basic
import RpcForge.Document.Schema.Check
import RpcForge.Document.Schema.Codec
import RpcForge.Document.SchemaType
import RpcForge.Document.Server
import RpcForge.Document.Wellformed
import RpcForge.Entries
import RpcForge.Interface.AliasOrder
import RpcForge.Interface.Basic
import RpcForge.Interface.Error
import RpcForge.Interface.Group
import RpcForge.Interface.Meaning
import RpcForge.Interface.Model
import RpcForge.Interface.Operation
import RpcForge.Interface.StringFormat
import RpcForge.Json.Members
import RpcForge.Json.Number
import RpcForge.Json.Printer
import RpcForge.Json.Reader
import RpcForge.Json.Record
import RpcForge.Json.Shape
import RpcForge.Json.Token
import RpcForge.Json.Value
import RpcForge.Main
import RpcForge.Naming
import RpcForge.Package.Basic
import RpcForge.Package.Comment
import RpcForge.Package.File
import RpcForge.Package.PythonClient
import RpcForge.Package.PythonModels
import RpcForge.Package.PythonPackage
import RpcForge.Package.Readme
import RpcForge.Package.Toml
import RpcForge.Package.TypeScriptClient
import RpcForge.Package.TypeScriptModels
import RpcForge.Package.TypeScriptPackage
import RpcForge.Proofs.Client.LiteralSpelling
import RpcForge.Proofs.Client.Mentions
import RpcForge.Proofs.Client.TypeGrammar
import RpcForge.Proofs.Client.TypeReading
import RpcForge.Proofs.Client.TypeSpelling
import RpcForge.Proofs.Client.TypeTree
import RpcForge.Proofs.Client.TypeUnambiguous
import RpcForge.Proofs.Document.Check
import RpcForge.Proofs.Document.Fields
import RpcForge.Proofs.Document.Loading
import RpcForge.Proofs.Document.NormalForm
import RpcForge.Proofs.Document.RoundTrip
import RpcForge.Proofs.Document.Rules
import RpcForge.Proofs.Document.Schema
import RpcForge.Proofs.Document.SchemaFaults
import RpcForge.Proofs.Document.SchemaRules
import RpcForge.Proofs.Document.Wellformed
import RpcForge.Proofs.Entries
import RpcForge.Proofs.Except
import RpcForge.Proofs.Group.Collision
import RpcForge.Proofs.Group.Placement
import RpcForge.Proofs.Group.Shape
import RpcForge.Proofs.Interface.Acceptance
import RpcForge.Proofs.Interface.AliasOrder
import RpcForge.Proofs.Interface.ModelNames
import RpcForge.Proofs.Interface.Resolution
import RpcForge.Proofs.Json.Reading
import RpcForge.Proofs.Json.Shape
import RpcForge.Proofs.Json.Spelling
import RpcForge.Proofs.Package.Models
import RpcForge.Run.CommandLine
import RpcForge.Run.Error
import RpcForge.Run.FileTree
import RpcForge.Run.Generation
import RpcForge.Run.Loading
import RpcForge.Run.Settings
import RpcForge.Text.Blank
import RpcForge.Text.HiddenRanges
import RpcForge.Text.Letter
import RpcForge.Text.LetterRanges
import RpcForge.Text.Pieces
import RpcForge.Text.Quoted
import RpcForge.Text.Words
import RpcForge.Proofs.Client.MemberNames
import RpcForge.Proofs.Package.Acceptance
import RpcForge.Proofs.Run.Turns
import RpcForge.Proofs.Naming
import RpcForge.Proofs.Text.Parts
import RpcForge.Proofs.Text.Pieces
import RpcForge.Proofs.Package.Paths
import RpcForge.Proofs.Run.Effects
import RpcForge.Proofs.Client.Plan
import RpcForge.Proofs.Code.Blocks
import RpcForge.Proofs.Package.Bodies
import RpcForge.Proofs.Package.Calls
import RpcForge.Proofs.Client.ClassNames
import RpcForge.Proofs.Interface.ParameterRules
import RpcForge.Proofs.Package.Declarations
import RpcForge.Proofs.Package.ModelConversions
import RpcForge.Proofs.Package.ModelFiles
import RpcForge.Proofs.Package.ModuleNames
import RpcForge.Proofs.Package.SourceNames
import RpcForge.Proofs.Text.Casing
import RpcForge.Proofs.Client.ParameterNames
import RpcForge.Proofs.Package.Parameters
import RpcForge.Proofs.Interface.Definitions
import RpcForge.Proofs.Package.ModelCode
import RpcForge.Proofs.Package.Fields
import RpcForge.Proofs.Package.DefinedNames
import RpcForge.Proofs.Package.DefinitionOrder
import RpcForge.Proofs.Package.Conversions
import RpcForge.Proofs.Text.Lines
import RpcForge.Proofs.Text.Replace
import RpcForge.Proofs.Code.Lines
import RpcForge.Proofs.Code.Writer
import RpcForge.Proofs.Package.Docstring
import RpcForge.Proofs.Code.Comments
import RpcForge.Proofs.Package.SourceComments
import RpcForge.Proofs.Interface.Flattening
import RpcForge.Proofs.Package.ArgumentOrder
import RpcForge.Proofs.Client.TypeInvariance
import RpcForge.Proofs.Document.SchemaGrammar
import RpcForge.Proofs.Document.ServerUrl
import RpcForge.Proofs.Naming.Distinct
import RpcForge.Proofs.Naming.Identifier
import RpcForge.Proofs.Package.ClassParts
import RpcForge.Proofs.Package.Enumerations
import RpcForge.Proofs.Package.Servers
import RpcForge.Proofs.Text.StringLiteral
import RpcForge.Proofs.Text.Substitution
import RpcForge.Proofs.Document.References
import RpcForge.Proofs.Document.Extensions
import RpcForge.Proofs.Code.Indentation
import RpcForge.Proofs.Package.GroupMembers
import RpcForge.Proofs.Text.Escaping
import RpcForge.Proofs.Package.BlockComment
