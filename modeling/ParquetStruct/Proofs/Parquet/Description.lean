/-
# ParquetStruct.Proofs.Parquet.Description — what the nodes of a tree say of a Parquet schema.

A node describes a Parquet type if each of its fields says what the type says, no more and no less.
Two of them take a decision: a type length is kept for values of a fixed length only, and a logical
type without a counterpart gives way to the decimal that a primitive is annotated as by its converted
type.  Since child indices lead to the same places in a schema and in its tree, every node of the
tree describes a type of the schema, and every type is described.
-/
import ParquetStruct.Proofs.Parquet.Tree

namespace ParquetStruct.Parquet

variable {s : SchemaType} {l : LogicalType}

/-- How the values of a primitive are stored; a group has none. -/
def SchemaType.storage? : SchemaType → Option Storage
  | .primitive _ storage => some storage
  | .group .. => none

/-! ## Logical types -/

/-- The logical type that a tree has for a type of the schema: the type's own, or else the decimal
that a primitive is annotated as by its converted type. -/
inductive HasLogical (s : SchemaType) : LogicalType → Prop
  | own {l : LogicalType} (h : s.info.logical = some (.known l)) : HasLogical s l
  | legacy {storage : Storage} (hown : ∀ l, s.info.logical ≠ some (.known l))
      (hprimitive : s.storage? = some storage) (hdecimal : s.info.convertedType = some .decimal) :
      HasLogical s (.decimal storage.scale storage.precision)

/-- Only annotations that schema trees know too have a counterpart there. -/
theorem bind_toLogicalType?_eq_some_iff {logical : Option Logical} :
    logical.bind Logical.toLogicalType? = some l ↔ logical = some (.known l) := by
  cases logical with
  | none => simp
  | some a => cases a <;> simp [Logical.toLogicalType?]

theorem bind_toLogicalType?_eq_none_iff {logical : Option Logical} :
    logical.bind Logical.toLogicalType? = none ↔ ∀ l, logical ≠ some (.known l) := by
  rw [Option.eq_none_iff_forall_ne_some]
  exact forall_congr' fun l => not_congr bind_toLogicalType?_eq_some_iff

theorem legacyDecimal?_eq_some_iff {info : Info} {storage : Storage} :
    SchemaType.legacyDecimal? info storage = some l ↔
      info.convertedType = some .decimal ∧ .decimal storage.scale storage.precision = l := by
  unfold SchemaType.legacyDecimal?
  by_cases h : info.convertedType = some .decimal
  · simp [h]
  · simp [h]

/-- The logical type of a node, in the words of the schema. -/
theorem logicalType_tree_eq_some_iff : s.tree.logicalType = some l ↔ HasLogical s l := by
  cases s with
  | primitive info storage =>
    show (info.logical.bind Logical.toLogicalType?).or (SchemaType.legacyDecimal? info storage) =
      some l ↔ _
    rw [Option.or_eq_some_iff, bind_toLogicalType?_eq_some_iff, bind_toLogicalType?_eq_none_iff,
      legacyDecimal?_eq_some_iff]
    constructor
    · rintro (hown | ⟨hown, hdecimal, rfl⟩)
      · exact .own hown
      · exact .legacy hown rfl hdecimal
    · intro h
      cases h with
      | own hown => exact Or.inl hown
      | legacy hown hprimitive hdecimal =>
        cases hprimitive
        exact Or.inr ⟨hown, hdecimal, rfl⟩
  | group info fields =>
    show info.logical.bind Logical.toLogicalType? = some l ↔ _
    rw [bind_toLogicalType?_eq_some_iff]
    constructor
    · intro hown
      exact .own hown
    · intro h
      cases h with
      | own hown => exact hown
      | legacy _ hprimitive _ => cases hprimitive

/-! ## Descriptions -/

/-- A node that says of a Parquet type what there is to say, field by field. -/
structure Describes (s : SchemaType) (n : Node) : Prop where
  name : n.name = s.info.name
  physicalCode : n.physicalCode = s.storage?.map fun storage => storage.physical.code
  typeLength (length : Int32) : n.typeLength = some length ↔
    ∃ storage, s.storage? = some storage ∧ storage.physical = .fixedLenByteArray ∧
      storage.typeLength = length
  convertedType : n.convertedType = s.info.convertedType
  logicalType (l : LogicalType) : n.logicalType = some l ↔ HasLogical s l
  repetitionType : n.repetitionType = s.info.repetition
  children : n.children = s.fields.map SchemaType.tree

theorem physicalCode_tree (s : SchemaType) :
    s.tree.physicalCode = s.storage?.map fun storage => storage.physical.code := by
  cases s with
  | primitive info storage => rfl
  | group info fields => rfl

/-- Only values of a fixed length have a type length. -/
theorem typeLength_tree_eq_some_iff {length : Int32} : s.tree.typeLength = some length ↔
    ∃ storage, s.storage? = some storage ∧ storage.physical = .fixedLenByteArray ∧
      storage.typeLength = length := by
  cases s with
  | primitive info storage => simp [SchemaType.tree, SchemaType.storage?]
  | group info fields => simp [SchemaType.tree, SchemaType.storage?]

theorem convertedType_tree (s : SchemaType) : s.tree.convertedType = s.info.convertedType := by
  cases s with
  | primitive info storage => rfl
  | group info fields => rfl

/-- The tree of a Parquet type describes it. -/
theorem describes_tree (s : SchemaType) : Describes s s.tree where
  name := SchemaType.name_tree s
  physicalCode := physicalCode_tree s
  typeLength _ := typeLength_tree_eq_some_iff
  convertedType := convertedType_tree s
  logicalType _ := logicalType_tree_eq_some_iff
  repetitionType := SchemaType.repetitionType_tree s
  children := SchemaType.children_tree s

/-- Child indices lead to a node in the tree of a schema exactly if they lead to a type in the schema;
the node is then the tree of that type, and describes it. -/
theorem descendant_tree_eq_some_iff (t : SchemaType) (is : List Nat) (n : Node) :
    t.tree.descendant is = some n ↔
      ∃ s, t.descendant is = some s ∧ n = s.tree ∧ Describes s n := by
  rw [descendant_tree, Option.map_eq_some_iff]
  constructor
  · rintro ⟨s, hs, rfl⟩
    exact ⟨s, hs, rfl, describes_tree s⟩
  · rintro ⟨s, hs, rfl, -⟩
    exact ⟨s, hs, rfl⟩

end ParquetStruct.Parquet
