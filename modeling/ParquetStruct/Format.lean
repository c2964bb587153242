/-
# ParquetStruct.Format — the two forms a schema tree is printed in.
-/
import ParquetStruct.Struct.Declaration
import ParquetStruct.Struct.Layout
import ParquetStruct.Raw.Writer

namespace ParquetStruct

/-- A form of output. -/
inductive Format where
  | go
  | raw
  deriving DecidableEq, Repr, Inhabited

/-- A schema tree in the given form.  The raw form never fails and knows no depth limit. -/
def Format.render (format : Format) (pretty : Bool) (maxDepth : Nat) (root : Node) :
    Except SchemaError String :=
  match format with
  | .go => (Struct.declaration maxDepth root).map fun d => if pretty then Struct.indent d.text else d.text
  | .raw => .ok (if pretty then Raw.pretty root else Raw.compact root)

end ParquetStruct
