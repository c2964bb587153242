/-
# ParquetStruct.Schema.Annotation — the vocabulary a Parquet schema attaches to its nodes.

Physical types with their Thrift codes, the legacy converted types, the logical types with their
parameters, and field repetition.  Every enumeration lists its members in one fixed order (`all`)
and gives each its name in upper case; both the reader and the error texts rely on that order.
-/

namespace ParquetStruct

/-! ## Physical types -/

/-- How the values of a column are stored. -/
inductive PhysicalType where
  | boolean
  | int32
  | int64
  | int96
  | float
  | double
  | byteArray
  | fixedLenByteArray
  deriving DecidableEq, Repr, Inhabited

namespace PhysicalType

/-- Every physical type, in the order of the Thrift codes. -/
def all : List PhysicalType :=
  [.boolean, .int32, .int64, .int96, .float, .double, .byteArray, .fixedLenByteArray]

/-- The Thrift code of a physical type. -/
def code : PhysicalType → Int32
  | .boolean => 0
  | .int32 => 1
  | .int64 => 2
  | .int96 => 3
  | .float => 4
  | .double => 5
  | .byteArray => 6
  | .fixedLenByteArray => 7

/-- The name of a physical type in the Thrift definition. -/
def name : PhysicalType → String
  | .boolean => "BOOLEAN"
  | .int32 => "INT32"
  | .int64 => "INT64"
  | .int96 => "INT96"
  | .float => "FLOAT"
  | .double => "DOUBLE"
  | .byteArray => "BYTE_ARRAY"
  | .fixedLenByteArray => "FIXED_LEN_BYTE_ARRAY"

/-- The physical type with the given Thrift code; codes outside the enumeration have none. -/
def ofCode? (c : Int32) : Option PhysicalType :=
  all.find? fun t => t.code == c

/-- The physical type with the given name. -/
def ofName? (s : String) : Option PhysicalType :=
  all.find? fun t => t.name == s

@[simp] theorem ofCode?_code (t : PhysicalType) : ofCode? t.code = some t := by
  cases t <;> rfl

@[simp] theorem ofName?_name (t : PhysicalType) : ofName? t.name = some t := by
  cases t <;> rfl

theorem code_eq_of_ofCode? {c : Int32} {t : PhysicalType} (h : ofCode? c = some t) :
    t.code = c := by
  simpa using List.find?_some h

end PhysicalType

/-! ## Converted types -/

/-- The legacy annotation of a schema node. -/
inductive ConvertedType where
  | utf8
  | map
  | mapKeyValue
  | list
  | enum
  | decimal
  | date
  | timeMillis
  | timeMicros
  | timestampMillis
  | timestampMicros
  | uint8
  | uint16
  | uint32
  | uint64
  | int8
  | int16
  | int32
  | int64
  | json
  | bson
  | interval
  deriving DecidableEq, Repr, Inhabited

namespace ConvertedType

/-- Every converted type, in the order in which names are listed to a reader. -/
def all : List ConvertedType :=
  [.utf8, .map, .mapKeyValue, .list, .enum, .decimal, .date, .timeMillis, .timeMicros,
    .timestampMillis, .timestampMicros, .uint8, .uint16, .uint32, .uint64, .int8, .int16,
    .int32, .int64, .json, .bson, .interval]

/-- The name of a converted type in the Thrift definition. -/
def name : ConvertedType → String
  | .utf8 => "UTF8"
  | .map => "MAP"
  | .mapKeyValue => "MAP_KEY_VALUE"
  | .list => "LIST"
  | .enum => "ENUM"
  | .decimal => "DECIMAL"
  | .date => "DATE"
  | .timeMillis => "TIME_MILLIS"
  | .timeMicros => "TIME_MICROS"
  | .timestampMillis => "TIMESTAMP_MILLIS"
  | .timestampMicros => "TIMESTAMP_MICROS"
  | .uint8 => "UINT_8"
  | .uint16 => "UINT_16"
  | .uint32 => "UINT_32"
  | .uint64 => "UINT_64"
  | .int8 => "INT_8"
  | .int16 => "INT_16"
  | .int32 => "INT_32"
  | .int64 => "INT_64"
  | .json => "JSON"
  | .bson => "BSON"
  | .interval => "INTERVAL"

/-- The converted type with the given name. -/
def ofName? (s : String) : Option ConvertedType :=
  all.find? fun t => t.name == s

@[simp] theorem ofName?_name (t : ConvertedType) : ofName? t.name = some t := by
  cases t <;> rfl

end ConvertedType

/-! ## Logical types -/

/-- The unit of a time or timestamp. -/
inductive TimeUnit where
  | millis
  | micros
  | nanos
  deriving DecidableEq, Repr, Inhabited

namespace TimeUnit

/-- Every time unit, coarsest first. -/
def all : List TimeUnit := [.millis, .micros, .nanos]

/-- The name of a time unit. -/
def name : TimeUnit → String
  | .millis => "MILLIS"
  | .micros => "MICROS"
  | .nanos => "NANOS"

/-- The time unit with the given name. -/
def ofName? (s : String) : Option TimeUnit :=
  all.find? fun t => t.name == s

@[simp] theorem ofName?_name (t : TimeUnit) : ofName? t.name = some t := by
  cases t <;> rfl

end TimeUnit

/-- The modern annotation of a schema node. -/
inductive LogicalType where
  | string
  | map
  | list
  | enum
  | decimal (scale precision : Int32)
  | date
  | time (utc : Bool) (unit : TimeUnit)
  | timestamp (utc : Bool) (unit : TimeUnit)
  | integer (bitWidth : Int8) (signed : Bool)
  | unknown
  | json
  | bson
  | uuid
  | float16
  deriving DecidableEq, Repr, Inhabited

/-- The name of a logical type, without its parameters. -/
def LogicalType.name : LogicalType → String
  | .string => "STRING"
  | .map => "MAP"
  | .list => "LIST"
  | .enum => "ENUM"
  | .decimal .. => "DECIMAL"
  | .date => "DATE"
  | .time .. => "TIME"
  | .timestamp .. => "TIMESTAMP"
  | .integer .. => "INTEGER"
  | .unknown => "UNKNOWN"
  | .json => "JSON"
  | .bson => "BSON"
  | .uuid => "UUID"
  | .float16 => "FLOAT16"

/-! ## Repetition -/

/-- How often a field occurs in its parent. -/
inductive Repetition where
  | required
  | optional
  | repeated
  deriving DecidableEq, Repr, Inhabited

namespace Repetition

/-- Every repetition, in the order of the Thrift codes. -/
def all : List Repetition := [.required, .optional, .repeated]

/-- The name of a repetition in the Thrift definition. -/
def name : Repetition → String
  | .required => "REQUIRED"
  | .optional => "OPTIONAL"
  | .repeated => "REPEATED"

/-- The repetition with the given name. -/
def ofName? (s : String) : Option Repetition :=
  all.find? fun t => t.name == s

@[simp] theorem ofName?_name (r : Repetition) : ofName? r.name = some r := by
  cases r <;> rfl

end Repetition

end ParquetStruct
