/-
# ParquetStruct.Raw.Writer — schema trees in their raw form.

A node is written as a JSON object with its fields in a fixed order; absent fields and an empty
list of children are left out.
-/
import ParquetStruct.Json.Value
import ParquetStruct.Raw.Key
import ParquetStruct.Schema.Node

namespace ParquetStruct.Raw

open ParquetStruct.Json

/-! ## Annotations -/

/-- The raw form of an integer. -/
def ofInt (n : Int) : Value := .number (.ofInt n)

/-- The raw form of a text. -/
def ofString (s : String) : Value := .string (some s)

/-- The raw form of a name with parameters. -/
def withParameters (name : String) (parameters : List (String × Value)) : Value :=
  .object (.ofList [(name, .object (.ofList parameters))])

/-- The raw form of a logical type. -/
def ofLogical (l : LogicalType) : Value :=
  match l with
  | .decimal scale precision =>
    withParameters l.name [("scale", ofInt scale.toInt), ("precision", ofInt precision.toInt)]
  | .time utc unit | .timestamp utc unit =>
    withParameters l.name [("utc", .bool utc), ("unit", ofString unit.name)]
  | .integer bitWidth signed =>
    withParameters l.name [("bit_width", ofInt bitWidth.toInt), ("signed", .bool signed)]
  | _ => ofString l.name

/-! ## Nodes -/

/-- A field that is written only if it has a value. -/
def field (key : Key) (value : Option Value) : List (String × Value) :=
  (value.map fun v => (key.text, v)).toList

mutual

/-- The raw form of a node. -/
def ofNode : Node → Value
  | ⟨name, physicalCode, typeLength, convertedType, logicalType, repetitionType, children⟩ =>
    .object <| .ofList <|
      field .name (some (ofString name)) ++
      field .physicalType (physicalCode.map fun c => ofInt c.toInt) ++
      field .typeLength (typeLength.map fun n => ofInt n.toInt) ++
      field .convertedType (convertedType.map fun c => ofString c.name) ++
      field .logicalType (logicalType.map ofLogical) ++
      field .repetitionType (repetitionType.map fun r => ofString r.name) ++
      field .children (if children.isEmpty then none else some (.array (ofNodes children)))

/-- The raw form of a list of nodes. -/
def ofNodes : List Node → Items
  | [] => .close
  | n :: ns => .item (ofNode n) (ofNodes ns)

end

/-- The tokens of the raw form of a tree. -/
def tokens (n : Node) : List Token := (ofNode n).tokens

/-- The raw form of a tree on one line. -/
def compact (n : Node) : String := String.ofList (compactChars (tokens n))

/-- The raw form of a tree with a line for every field. -/
def pretty (n : Node) : String := String.ofList (prettyChars 0 (tokens n))

end ParquetStruct.Raw
