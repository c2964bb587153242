import ParquetStruct.Main
import ParquetStruct.Proofs.Outcome
import ParquetStruct.Proofs.Schema.Node
import ParquetStruct.Proofs.Schema.Shape
import ParquetStruct.Proofs.Struct.Identifier
import ParquetStruct.Proofs.Text.Line
import ParquetStruct.Proofs.Text.Content
import ParquetStruct.Proofs.Struct.Walk
import ParquetStruct.Proofs.Struct.Tag
import ParquetStruct.Proofs.Struct.Column
import ParquetStruct.Proofs.Struct.Line
import ParquetStruct.Proofs.Struct.Compact
import ParquetStruct.Proofs.Struct.Layout
import ParquetStruct.Proofs.Struct.Fault
import ParquetStruct.Proofs.Struct.Nesting
import ParquetStruct.Proofs.Text.Decimal
import ParquetStruct.Proofs.Struct.Readback
import ParquetStruct.Proofs.Json.Number
import ParquetStruct.Proofs.Json.Quoted
import ParquetStruct.Proofs.Json.Token
import ParquetStruct.Proofs.Json.Document
import ParquetStruct.Proofs.Raw.Annotation
import ParquetStruct.Proofs.Raw.RoundTrip
import ParquetStruct.Proofs.Struct.Subtree
import ParquetStruct.Proofs.Struct.Grammar
import ParquetStruct.Proofs.Raw.Rendering
import ParquetStruct.Proofs.Raw.Grammar
import ParquetStruct.Proofs.Raw.Recognition
import ParquetStruct.Proofs.Raw.Canonical
import ParquetStruct.Proofs.Struct.TypeFault
import ParquetStruct.Proofs.Parquet.Tree
import ParquetStruct.Proofs.Store.Write
import ParquetStruct.Proofs.Command.Run
import ParquetStruct.Proofs.Struct.Section
import ParquetStruct.Proofs.Struct.Indentation
import ParquetStruct.Proofs.Struct.Spacing
import ParquetStruct.Proofs.Struct.Encoding
import ParquetStruct.Proofs.Struct.Depth
import ParquetStruct.Proofs.Schema.Kind
import ParquetStruct.Proofs.Schema.Edit
import ParquetStruct.Proofs.Json.Space
import ParquetStruct.Proofs.Raw.Unique
import ParquetStruct.Proofs.Parquet.Description
import ParquetStruct.Proofs.Schema.Message
import ParquetStruct.Proofs.Struct.Message
import ParquetStruct.Proofs.Struct.Container
import ParquetStruct.Proofs.Parquet.Decimal
import ParquetStruct.Proofs.Struct.NormalForm
import ParquetStruct.Proofs.Struct.Collision
