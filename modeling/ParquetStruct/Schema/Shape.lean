/-
# ParquetStruct.Schema.Shape — what a node stands for.

`Node.kind` answers from the node alone whether it is a scalar, a struct, a list or a map;
`Node.shape` also resolves the members of lists and maps, and refuses containers without the
prescribed layout.  A container annotation counts more than the physical type, and LIST more than
MAP.
-/
import ParquetStruct.Schema.Error
import ParquetStruct.Schema.Node

namespace ParquetStruct

/-- The four things a node can stand for. -/
inductive Kind where
  | scalar
  | struct
  | list
  | map
  deriving DecidableEq, Repr, Inhabited

/-- Everything but a scalar is composite. -/
def Kind.isComposite (k : Kind) : Bool :=
  k != .scalar

/-- What a node stands for, with the nodes it is made of. -/
inductive Shape where
  | scalar (physical : PhysicalType)
  | struct (children : List Node)
  /-- In a two-level list the repeated child is itself the element, so its repetition is already
  accounted for by the list. -/
  | list (element : Node) (twoLevel : Bool)
  | map (key value : Node)
  deriving DecidableEq, Repr, Inhabited

/-- The kind of a shape. -/
def Shape.kind : Shape → Kind
  | .scalar _ => .scalar
  | .struct _ => .struct
  | .list .. => .list
  | .map .. => .map

namespace Node

/-! ## Reading one node -/

/-- The physical type of a node, `none` for a group. -/
def physicalType? (n : Node) (path : FieldPath) : Except SchemaError (Option PhysicalType) :=
  match n.physicalCode with
  | none => if n.children.isEmpty then .error (.typeNotSet path) else .ok none
  | some code =>
    match PhysicalType.ofCode? code with
    | some t => .ok (some t)
    | none => .error (.unknownPhysicalType code path)

/-- Whether the node is annotated as a list. -/
def isListAnnotated (n : Node) : Bool :=
  n.convertedType == some .list || n.logicalType == some .list

/-- Whether the node is annotated as a map. -/
def isMapAnnotated (n : Node) : Bool :=
  n.convertedType == some .map || n.convertedType == some .mapKeyValue ||
    n.logicalType == some .map

/-- The kind of a node, without a look at its descendants. -/
def kind (n : Node) (path : FieldPath) : Except SchemaError Kind := do
  let physical ← n.physicalType? path
  if n.isListAnnotated then
    return .list
  else if n.isMapAnnotated then
    return .map
  else if physical.isSome then
    return .scalar
  else
    return .struct

/-! ## Resolving containers -/

/-- Whether the repeated child of a LIST is itself the element even if it has just one child: it
has a physical code, or bears one of the two names that legacy writers gave to elements. -/
def isLegacyElement (list repeated : Node) : Bool :=
  repeated.physicalCode.isSome || repeated.name == "array" ||
    repeated.name == list.name ++ "_tuple"

/-- The shape of a LIST-annotated node: the one child of its repeated child is the element, unless
the repeated child is the element itself. -/
def listShape (n : Node) (path : FieldPath) : Except SchemaError Shape :=
  match n.children with
  | [repeated] =>
    if repeated.isRepeated then
      match repeated.children with
      | [element] =>
        .ok (if isLegacyElement n repeated then .list repeated true else .list element false)
      | _ => .ok (.list repeated true)
    else
      .error (.malformedContainer .list path (.notRepeated repeated.name))
  | children => .error (.malformedContainer .list path (.childCount children.length))

/-- The shape of a MAP-annotated node. -/
def mapShape (n : Node) (path : FieldPath) : Except SchemaError Shape :=
  match n.children with
  | [entries] =>
    if entries.isRepeated then
      match entries.children with
      | [key, value] => .ok (.map key value)
      | members =>
        .error (.malformedContainer .map path (.entryCount entries.name members.length))
    else
      .error (.malformedContainer .map path (.notRepeated entries.name))
  | children => .error (.malformedContainer .map path (.childCount children.length))

/-- The shape of a node, with the members of lists and maps resolved. -/
def shape (n : Node) (path : FieldPath) : Except SchemaError Shape := do
  let physical ← n.physicalType? path
  if n.isListAnnotated then
    n.listShape path
  else if n.isMapAnnotated then
    n.mapShape path
  else
    match physical with
    | some t => return .scalar t
    | none => return .struct n.children

end Node

end ParquetStruct
