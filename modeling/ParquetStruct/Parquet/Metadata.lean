/-
# ParquetStruct.Parquet.Metadata — a Parquet file without rows.

The metadata of such a file hold little more than its schema: one element for every group and
primitive, each before its fields.  Between the marks at both ends of the file stands nothing else
than the metadata and their length.
-/
import ParquetStruct.Parquet.Compact
import ParquetStruct.Parquet.Type

namespace ParquetStruct.Parquet

open ParquetStruct.Parquet.Compact

/-! ## Annotations -/

/-- The unit of a time or timestamp. -/
def encodeUnit : TimeUnit → Encoded
  | .millis => choice 1 (struct [])
  | .micros => choice 2 (struct [])
  | .nanos => choice 3 (struct [])

/-- A logical type that schema trees know. -/
def encodeLogicalType : LogicalType → Encoded
  | .string => choice 1 (struct [])
  | .map => choice 2 (struct [])
  | .list => choice 3 (struct [])
  | .enum => choice 4 (struct [])
  | .decimal scale precision =>
    choice 5 (struct [(1, some (int32 scale.toInt)), (2, some (int32 precision.toInt))])
  | .date => choice 6 (struct [])
  | .time utc unit => choice 7 (struct [(1, some (bool utc)), (2, some (encodeUnit unit))])
  | .timestamp utc unit => choice 8 (struct [(1, some (bool utc)), (2, some (encodeUnit unit))])
  | .integer bitWidth signed =>
    choice 10 (struct [(1, some (int8 bitWidth)), (2, some (bool signed))])
  | .unknown => choice 11 (struct [])
  | .json => choice 12 (struct [])
  | .bson => choice 13 (struct [])
  | .uuid => choice 14 (struct [])
  | .float16 => choice 15 (struct [])

/-- A logical annotation, unless it is newer than this vocabulary. -/
def encodeLogical? : Logical → Option Encoded
  | .known l => some (encodeLogicalType l)
  | .variant => some (choice 16 (struct []))
  | .geometry => some (choice 17 (struct []))
  | .geography => some (choice 18 (struct []))
  | .future => none

/-! ## Schemas -/

/-- A number that a negative value stands for the absence of. -/
def encodeUnsigned? (n : Int32) : Option Encoded :=
  if 0 ≤ n.toInt then some (int32 n.toInt) else none

/-- One element of a schema; a primitive has storage, and a group a number of fields. -/
def encodeElement (info : Info) (storage : Option Storage) (fields : Option Nat) : Encoded :=
  struct [
    (1, storage.map fun s => int32 s.physical.code.toInt),
    (2, storage.bind fun s => encodeUnsigned? s.typeLength),
    (3, info.repetition.map fun r => int32 (Repetition.all.idxOf r)),
    (4, some (text info.name)),
    (5, fields.map fun n => int32 n),
    (6, info.convertedType.map fun c => int32 (ConvertedType.all.idxOf c)),
    (7, storage.bind fun s => encodeUnsigned? s.scale),
    (8, storage.bind fun s => encodeUnsigned? s.precision),
    (10, info.logical.bind encodeLogical?)]

namespace SchemaType

mutual

/-- The elements of a type, its own before those of its fields. -/
def elements : SchemaType → List Encoded
  | .primitive info storage => [encodeElement info (some storage) none]
  | .group info fields => encodeElement info none (some fields.length) :: listElements fields

/-- The elements of types one after the other. -/
def listElements : List SchemaType → List Encoded
  | [] => []
  | t :: ts => t.elements ++ listElements ts

end

mutual

/-- The number of primitives in a type. -/
def leafCount : SchemaType → Nat
  | .primitive .. => 1
  | .group _ fields => listLeafCount fields

/-- The number of primitives in types. -/
def listLeafCount : List SchemaType → Nat
  | [] => 0
  | t :: ts => t.leafCount + listLeafCount ts

end

/-- The schema that a file with the given one is found to have: a root without fields keeps nothing
but its name. -/
def stored : SchemaType → SchemaType
  | .group info [] => .group { name := info.name } []
  | t => t

end SchemaType

/-! ## Files -/

/-- The mark at both ends of a Parquet file, `PAR1`. -/
def mark : List UInt8 := [0x50, 0x41, 0x52, 0x31]

/-- The program that a file without rows names as its writer. -/
def writer : String := "parquetstruct version 0.1"

/-- The metadata of a file without rows: version, schema, number of rows, row groups, writer, and
for every primitive that its values are in their natural order. -/
def encodeMetadata (schema : SchemaType) : List UInt8 :=
  (struct [
    (1, some (int32 1)),
    (2, some (structs schema.elements)),
    (3, some (int64 0)),
    (4, some (structs [])),
    (6, some (text writer)),
    (7, some (structs (List.replicate schema.leafCount (choice 1 (struct [])))))]).bytes

/-- The bytes of a file without rows. -/
def encodeFile (schema : SchemaType) : List UInt8 :=
  let metadata := encodeMetadata schema
  mark ++ metadata ++ littleEndian 4 metadata.length ++ mark

end ParquetStruct.Parquet
