import TypedClient.Text.Transliteration
import TypedClient.Text.Word
import TypedClient.Name.Case
import TypedClient.Name.Identifier
import TypedClient.Name.Unique
import TypedClient.Http.Method
import TypedClient.Http.Path
import TypedClient.Piece.Basic
import TypedClient.Piece.Bracket
import TypedClient.Piece.Offset
import TypedClient.TypeLiteral.Member
import TypedClient.TypeText.Object
import TypedClient.TypeText.Reference
import TypedClient.TypeText.Target
import TypedClient.TypeText.Union
import TypedClient.Artifact.Kind
import TypedClient.Run.Step
import TypedClient.Schema.Basic
import TypedClient.Warning
import TypedClient.Http.MediaType
import TypedClient.Operation.Basic
import TypedClient.Reported
import TypedClient.Table
import TypedClient.Operation.Reading
import TypedClient.Description.Block
import TypedClient.Description.Basic
import TypedClient.Description.Model
import TypedClient.Operation.Response
import TypedClient.Operation.Types
import TypedClient.Schema.Walk
import TypedClient.Json.Pretty
import TypedClient.Tag.Classification
import TypedClient.Config.Basic
import TypedClient.Module.Basic
import TypedClient.Module.Group
import TypedClient.Module.Endpoints
import TypedClient.Module.Properties
import TypedClient.Module.Types
import TypedClient.Module.Wrappers
import TypedClient.Module.WrapperText
import TypedClient.Module.HookTypes
import TypedClient.Module.Hooks
import TypedClient.Artifact.Basic
import TypedClient.Run.Basic
import TypedClient.Number.Double
import TypedClient.Number.Shortest
import TypedClient.Text.HiddenTable
import TypedClient.Text.Quoted
import TypedClient.Json.Fault
import TypedClient.Json.Reader
import TypedClient.Json.Token
import TypedClient.Json.Decode
import TypedClient.Config.Check
import TypedClient.Files.Error
import TypedClient.Text.Width
import TypedClient.Files.Tree
import TypedClient.Terminal.Grid
import TypedClient.Terminal.Palette
import TypedClient.Command.Arguments
import TypedClient.Command.Error
import TypedClient.Command.Generate
import TypedClient.Command.Listing
import TypedClient.Command.Run
import TypedClient.Main
import TypedClient.Proofs.Traversal
import TypedClient.Proofs.Text.Characters
import TypedClient.Proofs.Text.Lines
import TypedClient.Proofs.Text.Stretch
import TypedClient.Proofs.Text.Trim
import TypedClient.Proofs.Text.Utf8
import TypedClient.Proofs.Name.Characters
import TypedClient.Proofs.Name.Unique
import TypedClient.Proofs.Piece.Alignment
import TypedClient.Proofs.Piece.Quotes
import TypedClient.Proofs.Piece.Closed
import TypedClient.Proofs.Piece.Comments
import TypedClient.Proofs.Piece.Bytes
import TypedClient.Proofs.Piece.Stripping
import TypedClient.Proofs.Piece.Matching
import TypedClient.Proofs.Piece.Opacity
import TypedClient.Proofs.TypeLiteral.Placement
import TypedClient.Proofs.TypeLiteral.Nesting
import TypedClient.Proofs.TypeLiteral.Written
import TypedClient.Proofs.TypeLiteral.LeadingComments
import TypedClient.Proofs.TypeLiteral.Comments
import TypedClient.Proofs.TypeLiteral.Lookahead
import TypedClient.Proofs.TypeLiteral.Standing
import TypedClient.Proofs.TypeLiteral.Cut
import TypedClient.Proofs.TypeLiteral.LineStyle
import TypedClient.Proofs.TypeText.OneLine
import TypedClient.Proofs.TypeLiteral.Passing
import TypedClient.Proofs.TypeLiteral.Flat
import TypedClient.Proofs.TypeText.Rendering
import TypedClient.Proofs.Description.Location
import TypedClient.Proofs.Description.Extraction
import TypedClient.Proofs.Module.WrapperReading
import TypedClient.Proofs.Module.WrapperContents
import TypedClient.Proofs.Module.WrapperCharacters
import TypedClient.Proofs.Module.WrapperRoundTrip
import TypedClient.Proofs.Module.ApiRoundTrip
import TypedClient.Proofs.Module.HookRoundTrip
import TypedClient.Proofs.Schema.Ranking
import TypedClient.Proofs.Schema.Reachability
import TypedClient.Proofs.Schema.Completeness
import TypedClient.Proofs.Schema.Depth
import TypedClient.Proofs.Schema.Literals
import TypedClient.Proofs.Artifact.Kinds
import TypedClient.Proofs.Run.Interference
import TypedClient.Proofs.Module.WrapperScope
import TypedClient.Proofs.Run.Journal
import TypedClient.Proofs.Module.ParameterKeys
import TypedClient.Proofs.Table
import TypedClient.Proofs.Module.EndpointPairing
import TypedClient.Proofs.Run.Prepared
import TypedClient.Proofs.Run.Failure
import TypedClient.Proofs.Description.Declaration
import TypedClient.Proofs.Module.Exports
import TypedClient.Proofs.Module.Imports
import TypedClient.Proofs.Module.Declarations
import TypedClient.Proofs.Run.Imports
import TypedClient.Proofs.Tag.Classification
import TypedClient.Proofs.Module.Allocation
import TypedClient.Proofs.Operation.MadeIds
import TypedClient.Proofs.Description.Duplicates
import TypedClient.Proofs.Schema.References
import TypedClient.Proofs.Schema.Documentation
import TypedClient.Proofs.Operation.DistinctAliases
import TypedClient.Proofs.Name.SchemaType
import TypedClient.Proofs.Module.TypeNames
import TypedClient.Proofs.TypeText.Token
import TypedClient.Proofs.Module.LocalCapture
import TypedClient.Proofs.Module.HandWritten
import TypedClient.Proofs.Module.TypeImports
import TypedClient.Proofs.Module.HookScope
import TypedClient.Proofs.Artifact.Keys
import TypedClient.Proofs.Run.Counters
import TypedClient.Proofs.Run.FileCount
import TypedClient.Proofs.Run.Agreement
import TypedClient.Proofs.TypeText.Collapse
import TypedClient.Proofs.TypeText.Union
import TypedClient.Proofs.Operation.PathParameters
import TypedClient.Proofs.Operation.ResponseChoice
import TypedClient.Proofs.Module.GroupHeaders
import TypedClient.Proofs.Module.QuotedNames
import TypedClient.Proofs.Module.PathBuilders
import TypedClient.Proofs.Module.HookCalls
import TypedClient.Proofs.Schema.Calls
import TypedClient.Proofs.Config.Template
import TypedClient.Proofs.Name.Conversions
import TypedClient.Proofs.Name.Validity
import TypedClient.Proofs.Config.VerbPrefixes
import TypedClient.Proofs.Name.Words
import TypedClient.Proofs.TypeLiteral.OffsetMembers
