/-
# ParquetStruct.Struct.Column — the Go type and tag entries of one column.

A column is whatever takes one line of a struct: a scalar, a list of scalars or a map between
scalars.  Integer annotations choose the sized Go integer and text annotations choose `string`;
decimals, dates and times keep the type of their physical values.
-/
import ParquetStruct.Struct.Identifier
import ParquetStruct.Struct.Type
import ParquetStruct.Schema.Shape

namespace ParquetStruct.Struct

/-! ## Scalar types -/

/-- Bit width and signedness of an integer annotation; the logical type counts more than the
converted type. -/
def integerWidth? (n : Node) : Option (Int8 × Bool) :=
  match n.logicalType with
  | some (.integer bitWidth signed) => some (bitWidth, signed)
  | _ =>
    match n.convertedType with
    | some .int8 => some (8, true)
    | some .int16 => some (16, true)
    | some .int32 => some (32, true)
    | some .int64 => some (64, true)
    | some .uint8 => some (8, false)
    | some .uint16 => some (16, false)
    | some .uint32 => some (32, false)
    | some .uint64 => some (64, false)
    | _ => none

/-- Whether a node is annotated as text. -/
def isText (n : Node) : Bool :=
  n.logicalType == some .string || n.logicalType == some .enum || n.logicalType == some .json ||
    n.convertedType == some .utf8 || n.convertedType == some .enum ||
    n.convertedType == some .json

/-- The Go type of a 32-bit integer column. -/
def scalarOfInt32 (width : Option (Int8 × Bool)) : Scalar :=
  if width = some (8, true) then .int8
  else if width = some (16, true) then .int16
  else if width = some (8, false) then .uint8
  else if width = some (16, false) then .uint16
  else if width = some (32, false) then .uint32
  else .int32

/-- The Go type of a 64-bit integer column. -/
def scalarOfInt64 (width : Option (Int8 × Bool)) : Scalar :=
  if width = some (64, false) then .uint64 else .int64

/-- The Go type of a scalar of the given physical type.  Bytes are a `string` where they are text
and where they are the key of a map, since Go compares the keys of maps. -/
def scalarType (n : Node) (physical : PhysicalType) (mapKey : Bool) : Scalar :=
  match physical with
  | .boolean => .bool
  | .int32 => scalarOfInt32 (integerWidth? n)
  | .int64 => scalarOfInt64 (integerWidth? n)
  | .int96 => .string
  | .float => .float32
  | .double => .float64
  | .byteArray => if isText n || mapKey then .string else .bytes
  | .fixedLenByteArray => if mapKey then .string else .bytes

/-! ## Columns -/

/-- What a node that fits on one line contributes to its field. -/
structure Column where
  /-- The type before the field's own repetition. -/
  type : ColumnType
  /-- The entries about the node itself, placed before the repetition. -/
  own : Tag := {}
  /-- The entries about members of a container, placed after the repetition. -/
  members : Tag := {}
  deriving DecidableEq, Repr, Inhabited

/-- The entries that describe a scalar: physical type, converted type, length if it is fixed, and
the parameters of a logical decimal. -/
def scalarEntries (n : Node) (physical : PhysicalType) : Tag :=
  let tag : Tag := {}
  let tag := tag.push "type" physical.name
  let tag := tag.pushOpt "convertedtype" (n.convertedType.map ConvertedType.name)
  let tag :=
    if physical = .fixedLenByteArray then
      tag.pushOpt "length" (n.typeLength.map fun l => toString l.toInt)
    else tag
  match n.logicalType with
  | some (.decimal scale precision) =>
    (tag.push "scale" (toString scale.toInt)).push "precision" (toString precision.toInt)
  | _ => tag

/-- The entries that describe one member of a container, under the member's role. -/
def memberEntries (role : String) (n : Node) (physical : PhysicalType) : Tag :=
  let tag : Tag := {}
  let tag := tag.push (role ++ "type") physical.name
  tag.pushOpt (role ++ "convertedtype") (n.convertedType.map ConvertedType.name)

/-- The physical type of a member of a container; a member that is no scalar is refused with
`composite`, without a look at what lies below it. -/
def memberType (n : Node) (path : FieldPath) (composite : SchemaError) :
    Except SchemaError PhysicalType := do
  let kind ← n.kind path
  let physical ← n.physicalType? path
  match kind, physical with
  | .scalar, some t => return t
  | _, _ => throw composite

/-- The column of a scalar. -/
def scalarColumn (n : Node) (physical : PhysicalType) : Column :=
  { type := .scalar (scalarType n physical false), own := scalarEntries n physical }

/-- The column of a list; in a two-level list the element's repetition is the list's. -/
def listColumn (path : FieldPath) (element : Node) (twoLevel : Bool) :
    Except SchemaError Column := do
  let physical ←
    memberType element (path.child (identifier element.name)) (.compositeListElement path)
  let repetition := if twoLevel then .required else element.repetition
  return {
    type := .list repetition (scalarType element physical false)
    own := Tag.push {} "type" ConvertedType.list.name
    members := memberEntries "value" element physical }

/-- The column of a map; the key is looked at before the value. -/
def mapColumn (path : FieldPath) (key value : Node) : Except SchemaError Column := do
  let keyType ← memberType key (path.child (identifier key.name)) (.compositeMapKey path)
  let valueType ← memberType value (path.child (identifier value.name)) (.compositeMapValue path)
  return {
    type := .map (scalarType key keyType true) value.repetition (scalarType value valueType false)
    own := Tag.push {} "type" ConvertedType.map.name
    members := memberEntries "key" key keyType ++ memberEntries "value" value valueType }

/-- The column of a node, `none` if the node is a struct. -/
def column? (n : Node) (path : FieldPath) : Except SchemaError (Option Column) := do
  match ← n.shape path with
  | .scalar physical => return some (scalarColumn n physical)
  | .struct _ => return none
  | .list element twoLevel => return some (← listColumn path element twoLevel)
  | .map key value => return some (← mapColumn path key value)

/-- The tag of a field: the raw name, the node's own entries, the repetition, and the entries of
members. -/
def fieldTag (n : Node) (own members : Tag) : Tag :=
  (Tag.push {} "name" n.name ++ own).push "repetitiontype" n.repetition.name ++ members

end ParquetStruct.Struct
