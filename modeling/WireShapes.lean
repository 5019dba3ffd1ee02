import WireShapes.Bindings.Context
import WireShapes.Bindings.Declaration
import WireShapes.Bindings.DecoderCode
import WireShapes.Bindings.Decoders
import WireShapes.Bindings.OfModel
import WireShapes.Bindings.OperationCode
import WireShapes.Bindings.Phrases
import WireShapes.Bindings.TypeCode
import WireShapes.Bindings.Types
import WireShapes.Code.Ident
import WireShapes.Code.Pieces
import WireShapes.Code.Tree
import WireShapes.Code.Words
import WireShapes.Command.Arguments
import WireShapes.Command.Files
import WireShapes.Command.Run
import WireShapes.Decoding.Builder
import WireShapes.Decoding.Run
import WireShapes.Decoding.Value
import WireShapes.Layout.Lines
import WireShapes.Layout.Piece
import WireShapes.Main
import WireShapes.Model.Basic
import WireShapes.Model.Binding
import WireShapes.Model.Cycles
import WireShapes.Model.GenerateError
import WireShapes.Model.LoadError
import WireShapes.Model.Loader
import WireShapes.Model.Shape
import WireShapes.Model.Symbol
import WireShapes.Model.Table
import WireShapes.Proofs.Pattern
import WireShapes.Samples.Corners
import WireShapes.Samples.Flavors
import WireShapes.Samples.Showcase
import WireShapes.Scalar.Base64
import WireShapes.Scalar.Binary
import WireShapes.Scalar.Integer
import WireShapes.Scalar.Kind
import WireShapes.Scalar.Timestamp
import WireShapes.Text.Blank
import WireShapes.Text.Letter
import WireShapes.Text.Quoted
import WireShapes.Text.Run
import WireShapes.Text.Utf8
import WireShapes.Text.Visible
import WireShapes.Text.Words
import WireShapes.Wire.DecodeError
import WireShapes.Wire.Document
import WireShapes.Wire.Element
import WireShapes.Wire.ErrorReport
import WireShapes.Wire.Reading
import WireShapes.Wire.StartTag
import WireShapes.Xml.Attribute
import WireShapes.Xml.Fault
import WireShapes.Xml.Name
import WireShapes.Xml.Reference
import WireShapes.Xml.Token
import WireShapes.Proofs.Ambiguity
import WireShapes.Proofs.References
import WireShapes.Proofs.Walk
import WireShapes.Proofs.Cycles
import WireShapes.Proofs.Content
import WireShapes.Proofs.Scope
import WireShapes.Proofs.Session
import WireShapes.Proofs.Meaning
import WireShapes.Proofs.Gathering
import WireShapes.Proofs.Decoding
import WireShapes.Proofs.Reachable
import WireShapes.Proofs.ShowcaseDecoders
import WireShapes.Proofs.BindingTable
import WireShapes.Proofs.ModelFiles
import WireShapes.Proofs.FiniteTypes
import WireShapes.Proofs.GeneratedCode
import WireShapes.Proofs.Extras
import WireShapes.Proofs.Truncation
import WireShapes.Proofs.ErrorDocuments
import WireShapes.Proofs.Nesting
import WireShapes.Proofs.ModelDocuments
import WireShapes.Proofs.Likeness
import WireShapes.Proofs.Flavors
import WireShapes.Proofs.Unions
import WireShapes.Proofs.Enumerations
import WireShapes.Proofs.ErrorCodes
import WireShapes.Proofs.CollectionTypes
import WireShapes.Proofs.Collections
import WireShapes.Proofs.Resolver
import WireShapes.Proofs.OwnText
import WireShapes.Proofs.Astray
import WireShapes.Proofs.PastLimit
import WireShapes.Proofs.Items
import WireShapes.Proofs.Flattening
import WireShapes.Proofs.Conflicts
import WireShapes.Proofs.Marks
import WireShapes.Proofs.Barrier
import WireShapes.Proofs.TypedDecoders
import WireShapes.Proofs.Identifiers
import WireShapes.Proofs.ScalarTexts
import WireShapes.Proofs.Base64
import WireShapes.Proofs.Lockstep
import WireShapes.Proofs.DecodersInStep
import WireShapes.Proofs.AttributeOrder
import WireShapes.Proofs.Slots
import WireShapes.Proofs.Prelude
import WireShapes.Proofs.GeneratedRuns
