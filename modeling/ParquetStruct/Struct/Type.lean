/-
# ParquetStruct.Struct.Type — the part of the Go language that schemas are printed in.

A declaration names a body; a body is a type on one line or a struct; a struct is a list of fields,
each with a name, a mark for its repetition, a type and a tag.  The compact text of a declaration
has one field line per column, no indentation, and one space between name, type and tag.
-/
import ParquetStruct.Struct.Tag
import ParquetStruct.Schema.Node

namespace ParquetStruct.Struct

/-! ## Types that fit on one line -/

/-- The Go types of single values. -/
inductive Scalar where
  | bool
  | int8
  | int16
  | int32
  | int64
  | uint8
  | uint16
  | uint32
  | uint64
  | float32
  | float64
  | string
  | bytes
  deriving DecidableEq, Repr, Inhabited

/-- The Go spelling of a scalar type. -/
def Scalar.text : Scalar → String
  | .bool => "bool"
  | .int8 => "int8"
  | .int16 => "int16"
  | .int32 => "int32"
  | .int64 => "int64"
  | .uint8 => "uint8"
  | .uint16 => "uint16"
  | .uint32 => "uint32"
  | .uint64 => "uint64"
  | .float32 => "float32"
  | .float64 => "float64"
  | .string => "string"
  | .bytes => "[]byte"

/-- The mark in front of a type that says how often its value occurs. -/
def mark : Repetition → String
  | .required => ""
  | .optional => "*"
  | .repeated => "[]"

/-- A type that fits on one line. -/
inductive ColumnType where
  | scalar (t : Scalar)
  /-- A slice of elements, each with its own repetition. -/
  | list (repetition : Repetition) (element : Scalar)
  /-- A map to values, each with its own repetition. -/
  | map (key : Scalar) (repetition : Repetition) (value : Scalar)
  deriving DecidableEq, Repr, Inhabited

/-- The Go spelling of a type that fits on one line. -/
def ColumnType.text : ColumnType → String
  | .scalar t => t.text
  | .list r element => "[]" ++ mark r ++ element.text
  | .map key r value => "map[" ++ key.text ++ "]" ++ mark r ++ value.text

/-! ## Fields and declarations -/

/-- A field of a Go struct. -/
inductive Field where
  | column (name : String) (repetition : Repetition) (type : ColumnType) (tag : Tag)
  | group (name : String) (repetition : Repetition) (fields : List Field) (tag : Tag)
  deriving Inhabited, Repr

/-- What a declaration gives a name to. -/
inductive Body where
  | column (type : ColumnType)
  | struct (fields : List Field)
  deriving Inhabited, Repr

/-- A named Go type. -/
structure Declaration where
  name : String
  body : Body
  deriving Inhabited, Repr

/-! ## Compact text -/

/-- A struct around the text of its fields. -/
def structChars (fields : List Char) : List Char :=
  "struct \x7b\n".toList ++ fields ++ ['\x7d']

/-- The line or lines of a field: name, marked type and tag, with single spaces between them. -/
def fieldChars (name : String) (repetition : Repetition) (type : List Char) (tag : Tag) :
    List Char :=
  name.toList ++ ' ' :: (mark repetition).toList ++ type ++ ' ' :: tag.chars ++ ['\n']

mutual

/-- The compact text of a field, with the newline that ends it. -/
def Field.chars : Field → List Char
  | .column name r type tag => fieldChars name r type.text.toList tag
  | .group name r fields tag => fieldChars name r (structChars (Field.listChars fields)) tag

/-- The compact text of fields one after the other. -/
def Field.listChars : List Field → List Char
  | [] => []
  | f :: fs => f.chars ++ Field.listChars fs

end

/-- The compact text of what a declaration names. -/
def Body.chars : Body → List Char
  | .column type => type.text.toList
  | .struct fields => structChars (Field.listChars fields)

/-- The compact text of what a declaration names. -/
def Body.text (b : Body) : String := String.ofList b.chars

/-- The compact text of a declaration. -/
def Declaration.chars (d : Declaration) : List Char :=
  "type ".toList ++ d.name.toList ++ ' ' :: d.body.chars

/-- The compact text of a declaration. -/
def Declaration.text (d : Declaration) : String := String.ofList d.chars

@[simp] theorem Field.listChars_nil : Field.listChars [] = [] := rfl

@[simp] theorem Field.listChars_cons (f : Field) (fs : List Field) :
    Field.listChars (f :: fs) = f.chars ++ Field.listChars fs := rfl

end ParquetStruct.Struct
