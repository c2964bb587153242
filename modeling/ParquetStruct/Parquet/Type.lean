/-
# ParquetStruct.Parquet.Type — schemas as Parquet files hold them, and their schema trees.

A Parquet schema is a tree of groups and primitives.  Its annotations are richer than those of a
schema tree in one place, logical types without a counterpart, which the tree leaves out; and
poorer in another, decimals that are annotated by their converted type alone, whose parameters the
tree takes from the primitive.
-/
import ParquetStruct.Schema.Node

namespace ParquetStruct.Parquet

/-- The logical annotation of a Parquet type. -/
inductive Logical where
  /-- One that schema trees know too. -/
  | known (l : LogicalType)
  | variant
  | geometry
  | geography
  /-- One that is newer than this vocabulary. -/
  | future
  deriving DecidableEq, Repr, Inhabited

/-- The logical type of schema trees for a logical annotation. -/
def Logical.toLogicalType? : Logical → Option LogicalType
  | .known l => some l
  | _ => none

/-- What every Parquet type has. -/
structure Info where
  name : String
  repetition : Option Repetition := none
  convertedType : Option ConvertedType := none
  logical : Option Logical := none
  deriving DecidableEq, Repr, Inhabited

/-- What a primitive Parquet type has besides. -/
structure Storage where
  physical : PhysicalType
  typeLength : Int32 := -1
  scale : Int32 := -1
  precision : Int32 := -1
  deriving DecidableEq, Repr, Inhabited

/-- A Parquet type. -/
inductive SchemaType where
  | primitive (info : Info) (storage : Storage)
  | group (info : Info) (fields : List SchemaType)
  deriving Inhabited, Repr

namespace SchemaType

/-- What every Parquet type has. -/
def info : SchemaType → Info
  | .primitive info _ => info
  | .group info _ => info

/-- The fields of a group; a primitive has none. -/
def fields : SchemaType → List SchemaType
  | .primitive .. => []
  | .group _ fields => fields

/-! ## Schema trees -/

/-- The decimal that a primitive is annotated as by its converted type alone. -/
def legacyDecimal? (info : Info) (storage : Storage) : Option LogicalType :=
  if info.convertedType = some .decimal then some (.decimal storage.scale storage.precision)
  else none

mutual

/-- The schema tree of a Parquet type.  The type length is kept where values have a fixed length,
and the logical type where the tree has a counterpart. -/
def tree : SchemaType → Node
  | .primitive info storage => {
      name := info.name
      physicalCode := some storage.physical.code
      typeLength :=
        if storage.physical = .fixedLenByteArray then some storage.typeLength else none
      convertedType := info.convertedType
      logicalType :=
        (info.logical.bind Logical.toLogicalType?).or (legacyDecimal? info storage)
      repetitionType := info.repetition }
  | .group info fields => {
      name := info.name
      convertedType := info.convertedType
      logicalType := info.logical.bind Logical.toLogicalType?
      repetitionType := info.repetition
      children := trees fields }

/-- The schema trees of Parquet types. -/
def trees : List SchemaType → List Node
  | [] => []
  | t :: ts => t.tree :: trees ts

end

theorem trees_eq_map (ts : List SchemaType) : trees ts = ts.map tree := by
  induction ts with
  | nil => rfl
  | cons t ts ih => rw [trees, ih, List.map_cons]

@[simp] theorem name_tree (t : SchemaType) : t.tree.name = t.info.name := by
  cases t <;> rfl

@[simp] theorem repetitionType_tree (t : SchemaType) :
    t.tree.repetitionType = t.info.repetition := by
  cases t <;> rfl

@[simp] theorem children_tree (t : SchemaType) : t.tree.children = t.fields.map tree := by
  cases t with
  | primitive => rfl
  | group info fields => exact trees_eq_map fields

end SchemaType

end ParquetStruct.Parquet
