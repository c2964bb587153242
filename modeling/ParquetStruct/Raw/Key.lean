/-
# ParquetStruct.Raw.Key — the fields of a node in the raw form.

The order of `Key.all` is the order in which fields are written, and the order in which a node
given as an array lists them.
-/

namespace ParquetStruct.Raw

/-- A field of a node. -/
inductive Key where
  | name
  | physicalType
  | typeLength
  | convertedType
  | logicalType
  | repetitionType
  | children
  deriving DecidableEq, Repr, Inhabited

namespace Key

/-- Every field, in the order of the raw form. -/
def all : List Key :=
  [.name, .physicalType, .typeLength, .convertedType, .logicalType, .repetitionType, .children]

/-- The key of a field in the raw form. -/
def text : Key → String
  | .name => "name"
  | .physicalType => "physical_type"
  | .typeLength => "type_length"
  | .convertedType => "converted_type"
  | .logicalType => "logical_type"
  | .repetitionType => "repetition_type"
  | .children => "children"

/-- The field with the given key. -/
def ofText? (s : String) : Option Key :=
  all.find? fun k => k.text == s

@[simp] theorem ofText?_text (k : Key) : ofText? k.text = some k := by
  cases k <;> rfl

end Key

end ParquetStruct.Raw
