/-
# ParquetStruct.Schema.Error — why a schema tree cannot be classified or rendered.

Every cause names the field where it was found; `message` is the one place that words them.
-/
import ParquetStruct.Schema.Path

namespace ParquetStruct

/-- The two annotations that prescribe a layout for the group that carries them. -/
inductive Container where
  | list
  | map
  deriving DecidableEq, Repr, Inhabited

/-- The name of a container annotation. -/
def Container.name : Container → String
  | .list => "LIST"
  | .map => "MAP"

/-- How a container group departs from its prescribed layout. -/
inductive LayoutFault where
  /-- The group does not have exactly one child. -/
  | childCount (found : Nat)
  /-- The one child is not repeated. -/
  | notRepeated (child : String)
  /-- The repeated group of a map does not have exactly a key and a value. -/
  | entryCount (child : String) (found : Nat)
  deriving DecidableEq, Repr, Inhabited

/-- The wording of a layout fault, with raw names between backquotes. -/
def LayoutFault.detail : LayoutFault → String
  | .childCount found => "expected 1 child, found " ++ toString found
  | .notRepeated child => "child `" ++ child ++ "` is not repeated"
  | .entryCount child found =>
    "group `" ++ child ++ "` expected 2 children, found " ++ toString found

/-- The reasons a schema tree cannot be classified or rendered. -/
inductive SchemaError where
  /-- A node has neither a physical type nor children. -/
  | typeNotSet (path : FieldPath)
  /-- A node carries a physical code outside the enumeration. -/
  | unknownPhysicalType (code : Int32) (path : FieldPath)
  /-- The key of a map is not a scalar. -/
  | compositeMapKey (path : FieldPath)
  /-- The value of a map is not a scalar. -/
  | compositeMapValue (path : FieldPath)
  /-- The element of a list is not a scalar. -/
  | compositeListElement (path : FieldPath)
  /-- A container annotation sits on a group without the prescribed layout. -/
  | malformedContainer (container : Container) (path : FieldPath) (fault : LayoutFault)
  /-- A field lies deeper below the root than allowed. -/
  | depthExceeded (maxDepth : Nat) (path : FieldPath)
  deriving DecidableEq, Repr, Inhabited

namespace SchemaError

/-- The path that an error names. -/
def path : SchemaError → FieldPath
  | .typeNotSet p => p
  | .unknownPhysicalType _ p => p
  | .compositeMapKey p => p
  | .compositeMapValue p => p
  | .compositeListElement p => p
  | .malformedContainer _ p _ => p
  | .depthExceeded _ p => p

/-- The wording of an error. -/
def message : SchemaError → String
  | .typeNotSet p => "type not set in field " ++ p.display
  | .unknownPhysicalType code p =>
    "unknown type: " ++ toString code.toInt ++ " in field " ++ p.display
  | .compositeMapKey p =>
    "go struct does not support composite type as map key in field " ++ p.display
  | .compositeMapValue p =>
    "go struct does not support composite type as map value in field " ++ p.display
  | .compositeListElement p =>
    "go struct does not support composite type as list element in field " ++ p.display
  | .malformedContainer container p fault =>
    "malformed " ++ container.name ++ " in field " ++ p.display ++ ": " ++ fault.detail
  | .depthExceeded maxDepth p =>
    "schema nesting exceeds " ++ toString maxDepth ++ " levels in field " ++ p.display

end SchemaError

end ParquetStruct
