/-
# ParquetStruct.Raw.Fault — why a text is not the raw form of a schema tree.

A text is either malformed, and then nothing more is said about it, or well formed up to a place
where something stands that no tree has there.  `Mismatch.message` words the second kind.
-/
import ParquetStruct.Number.Shortest
import ParquetStruct.Schema.Annotation
import ParquetStruct.Text.Quoted

namespace ParquetStruct.Raw

open ParquetStruct.Number

/-! ## What is expected, what is found -/

/-- The logical types with parameters. -/
inductive Parametric where
  | decimal
  | time
  | timestamp
  | integer
  deriving DecidableEq, Repr, Inhabited

/-- The name of a logical type with parameters, as error messages spell it. -/
def Parametric.title : Parametric → String
  | .decimal => "Decimal"
  | .time => "Time"
  | .timestamp => "Timestamp"
  | .integer => "Integer"

/-- What a place in a text is expected to hold. -/
inductive Expected where
  | string
  | int32
  | int8
  | boolean
  | nodes
  | node
  | nothing
  /-- The parameters of one logical type. -/
  | parameters (of : Parametric)
  /-- The parameters of a logical type that was given by its name alone. -/
  | someParameters
  deriving DecidableEq, Repr, Inhabited

/-- The wording of an expectation. -/
def Expected.text : Expected → String
  | .string => "a string"
  | .int32 => "i32"
  | .int8 => "i8"
  | .boolean => "a boolean"
  | .nodes => "a sequence"
  | .node => "struct SchemaNode"
  | .nothing => "unit"
  | .parameters p => "struct variant LogicalType::" ++ p.title
  | .someParameters => "struct variant"

/-- What a place in a text holds instead. -/
inductive Found where
  | null
  | boolean (b : Bool)
  | integer (n : Int)
  | double (negative : Bool) (magnitude : Binary64)
  | string (s : String)
  | array
  | object
  /-- A bare name, where the name and its parameters are due. -/
  | bareName
  deriving DecidableEq, Repr, Inhabited

/-- The wording of a find. -/
def Found.text : Found → String
  | .null => "null"
  | .boolean b => "boolean `" ++ toString b ++ "`"
  | .integer n => "integer `" ++ toString n ++ "`"
  | .double negative x => "floating point `" ++ (if negative then "-" else "") ++ x.text ++ "`"
  | .string s => "string " ++ Text.quoted s
  | .array => "sequence"
  | .object => "map"
  | .bareName => "unit variant"

/-! ## Faults -/

/-- How a well-formed text fails to be a tree. -/
inductive Mismatch where
  | wrongType (found : Found) (expected : Expected)
  /-- An integer is outside the range of its field. -/
  | outOfRange (n : Int) (expected : Expected)
  /-- An array stops before the fields that cannot be left out. -/
  | tooShort (found : Nat) (expected : Expected) (due : Nat)
  | missingField (name : String)
  | duplicateField (name : String)
  | unknownVariant (found : String) (known : List String)
  deriving DecidableEq, Repr, Inhabited

/-- The wording of a mismatch. -/
def Mismatch.message : Mismatch → String
  | .wrongType found expected => "invalid type: " ++ found.text ++ ", expected " ++ expected.text
  | .outOfRange n expected =>
    "invalid value: integer `" ++ toString n ++ "`, expected " ++ expected.text
  | .tooShort found expected due =>
    "invalid length " ++ toString found ++ ", expected " ++ expected.text ++ " with " ++
      toString due ++ " elements"
  | .missingField name => "missing field `" ++ name ++ "`"
  | .duplicateField name => "duplicate field `" ++ name ++ "`"
  | .unknownVariant found known =>
    "unknown variant `" ++ found ++ "`, expected one of " ++
      ", ".intercalate (known.map fun name => "`" ++ name ++ "`")

/-- Why a text is not the raw form of a tree. -/
inductive Fault where
  /-- The text is malformed, or nested too deeply, before any mismatch. -/
  | malformed
  | mismatch (m : Mismatch)
  deriving DecidableEq, Repr, Inhabited

end ParquetStruct.Raw
