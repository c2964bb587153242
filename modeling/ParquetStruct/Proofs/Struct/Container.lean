/-
# ParquetStruct.Proofs.Struct.Container — lists and maps that are built are found as such.

`Node.list` and `Node.map` wrap members in a repeated group under a name of their own choice, and
the classification looks at that name, since legacy writers gave some names to the elements of
lists.  The two never meet: whatever a list is called, its group is not taken for its element.  Nor
does it matter what is adjusted afterwards, as long as the node keeps its annotations and its
children and has no unknown physical code.  So the members are found again, and whether the
container can be rendered as a field is a matter of these members alone.
-/
import ParquetStruct.Proofs.Schema.Kind
import ParquetStruct.Proofs.Struct.Fault

namespace ParquetStruct.Struct

variable {n e k v wrapper member : Node} {container : Container} {path : FieldPath} {d : Nat}

/-! ## Adjustments -/

/-- What can be adjusted of a node that was built. -/
inductive Adjustment where
  | repetition (repetition : Option Repetition)
  | typeLength (length : Int32)
  /-- The physical code of a known type, or none. -/
  | physical (type : Option PhysicalType)
  deriving DecidableEq, Repr, Inhabited

/-- The node with one adjustment. -/
def adjust (n : Node) : Adjustment → Node
  | .repetition repetition => n.withRepetition repetition
  | .typeLength length => n.withTypeLength length
  | .physical type => n.withPhysicalCode (type.map PhysicalType.code)

/-- The node with adjustments made one after the other. -/
def adjusted (n : Node) (adjustments : List Adjustment) : Node :=
  adjustments.foldl adjust n

/-! ## Containers as they are built -/

/-- A container with the given child, and with the code of a known physical type if it has any. -/
structure IsBuilt (container : Container) (wrapper n : Node) : Prop where
  annotated : container? n = some container
  children : n.children = [wrapper]
  code : ∀ code, n.physicalCode = some code → ∃ t : PhysicalType, code = t.code

theorem isBuilt_list (name : String) (r : Repetition) (e : Node) :
    IsBuilt .list (.group "list" .repeated [e]) (.list name r e) :=
  ⟨rfl, rfl, nofun⟩

theorem isBuilt_map (name : String) (r : Repetition) (k v : Node) :
    IsBuilt .map (.group "key_value" .repeated [k, v]) (.map name r k v) :=
  ⟨rfl, rfl, nofun⟩

theorem IsBuilt.adjust (h : IsBuilt container wrapper n) (a : Adjustment) :
    IsBuilt container wrapper (adjust n a) := by
  cases a with
  | repetition r => exact ⟨h.annotated, h.children, h.code⟩
  | typeLength l => exact ⟨h.annotated, h.children, h.code⟩
  | physical t =>
    refine ⟨h.annotated, h.children, ?_⟩
    intro code hcode
    obtain ⟨t, -, rfl⟩ := Option.map_eq_some_iff.mp hcode
    exact ⟨t, rfl⟩

theorem IsBuilt.adjusted (h : IsBuilt container wrapper n) (as : List Adjustment) :
    IsBuilt container wrapper (adjusted n as) := by
  induction as generalizing n with
  | nil => exact h
  | cons a as ih => exact ih (h.adjust a)

/-! ## Classification -/

/-- The type of such a container can be read, whether it has one or not. -/
theorem IsBuilt.exists_physicalType? (h : IsBuilt container wrapper n) (path : FieldPath) :
    ∃ t, n.physicalType? path = .ok t := by
  cases hcode : n.physicalCode with
  | none =>
    refine ⟨none, Node.physicalType?_eq_none_iff.mpr ⟨hcode, ?_⟩⟩
    rw [h.children]
    exact List.cons_ne_nil wrapper []
  | some code =>
    obtain ⟨t, rfl⟩ := h.code code hcode
    exact ⟨some t, Node.physicalType?_eq_some_iff.mpr hcode⟩

/-- No list is called so that a group called `list` would be its element. -/
theorem isLegacyElement_group (n e : Node) :
    Node.isLegacyElement n (.group "list" .repeated [e]) = false := by
  have htuple : "list" ≠ n.name ++ "_tuple" := by
    intro h
    have hlength := congrArg String.length h
    rw [String.length_append] at hlength
    have hlist : "list".length = 4 := rfl
    have htuple : "_tuple".length = 6 := rfl
    omega
  simp [Node.isLegacyElement, Node.group, htuple]

theorem IsBuilt.shape_list (h : IsBuilt .list (.group "list" .repeated [e]) n)
    (path : FieldPath) : n.shape path = .ok (.list e false) := by
  obtain ⟨t, ht⟩ := h.exists_physicalType? path
  rw [shape_of_container h.annotated, ht, ok_bind]
  show n.listShape path = _
  unfold Node.listShape
  rw [h.children]
  show Except.ok (if Node.isLegacyElement n (.group "list" .repeated [e]) then _ else _) = _
  rw [isLegacyElement_group, if_neg Bool.false_ne_true]

theorem IsBuilt.shape_map (h : IsBuilt .map (.group "key_value" .repeated [k, v]) n)
    (path : FieldPath) : n.shape path = .ok (.map k v) := by
  obtain ⟨t, ht⟩ := h.exists_physicalType? path
  rw [shape_of_container h.annotated, ht, ok_bind]
  show n.mapShape path = _
  unfold Node.mapShape
  rw [h.children]
  rfl

/-! ## Rendering -/

/-- A member has no fault if it is a scalar, under whatever path it is looked at. -/
theorem memberFault?_eq_none_iff {composite : SchemaError} {q : FieldPath} :
    memberFault? member path composite = none ↔ member.kind q = .ok .scalar := by
  rw [← failure?_memberType, failure?_eq_none_iff]
  constructor
  · rintro ⟨t, ht⟩
    exact Node.kind_of_shape (Node.shape_congr (memberType_eq_ok_iff.mp ht) q)
  · intro h
    obtain ⟨t, -, ht⟩ := Node.shape_of_kind_scalar h
    exact ⟨t, memberType_eq_ok_iff.mpr (Node.shape_congr ht path)⟩

/-- A root whose only field is no struct is rendered if this field has no fault. -/
theorem exists_body_root_iff (h : ∀ path, n.shape path ≠ .ok (.struct n.children))
    (rootName : String) : (∃ b, body d (.root rootName [n]) = .ok b) ↔
      fault? d ((FieldPath.root (identifier rootName)).child (identifier n.name)) n = none := by
  have hroot : (Node.root rootName [n]).shape (.root (identifier rootName)) =
      .ok (.struct [n]) :=
    Node.shape_eq_struct_iff.mpr ⟨rfl, ⟨rfl, List.cons_ne_nil n []⟩, rfl, rfl⟩
  have hnodes : treeNodes (.root rootName [n]) =
      [(.root (identifier rootName), .root rootName [n]),
        ((FieldPath.root (identifier rootName)).child (identifier n.name), n)] := by
    show fieldNodes (.root (identifier rootName)) (.root rootName [n]) = _
    rw [fieldNodes_of_struct hroot]
    show _ :: (fieldNodes _ n ++ []) = _
    rw [fieldNodes_of_not_struct (h _), List.append_nil]
  have hfault : fault? d (.root (identifier rootName)) (.root rootName [n]) = none := by
    rw [fault?_of_depth (Nat.zero_le d), column?_of_struct hroot, failure?_ok]
  rw [← failure?_eq_none_iff, failure?_body, hnodes, List.findSome?_cons, nodeFault?, hfault]
  simp [nodeFault?]

/-- A container in a root is rendered if the limit lets the root have fields, and if the column of
the container can be made. -/
theorem IsBuilt.exists_body_iff (h : IsBuilt container wrapper n) (rootName : String) :
    (∃ b, body d (.root rootName [n]) = .ok b) ↔ 1 ≤ d ∧
      failure? (column? n ((FieldPath.root (identifier rootName)).child (identifier n.name))) =
        none := by
  have hcontainer : container? n ≠ none := by
    rw [h.annotated]
    exact Option.some_ne_none container
  rw [exists_body_root_iff fun _ => not_struct_of_container hcontainer, fault?_eq,
    Option.or_eq_none_iff, depthFault?_eq_none_iff]
  rfl

/-- However a list or a map is built and then adjusted, its members are found where they were put,
and no name makes the group of a list its element.  In a root it is rendered exactly if fields are
allowed at all and its members are scalars. -/
theorem shape_and_body_of_built (name rootName : String) (r : Repetition) (e k v : Node)
    (as : List Adjustment) (path : FieldPath) (d : Nat) :
    ((adjusted (.list name r e) as).shape path = .ok (.list e false) ∧
        ((adjusted (.list name r e) as).children = [.group "list" .repeated [e]] ∧
          Node.isLegacyElement (adjusted (.list name r e) as) (.group "list" .repeated [e]) =
            false) ∧
        ((∃ b, body d (.root rootName [adjusted (.list name r e) as]) = .ok b) ↔
          1 ≤ d ∧ e.kind path = .ok .scalar)) ∧
      (adjusted (.map name r k v) as).shape path = .ok (.map k v) ∧
        ((∃ b, body d (.root rootName [adjusted (.map name r k v) as]) = .ok b) ↔
          1 ≤ d ∧ k.kind path = .ok .scalar ∧ v.kind path = .ok .scalar) := by
  have hlist := (isBuilt_list name r e).adjusted as
  have hmap := (isBuilt_map name r k v).adjusted as
  refine ⟨⟨hlist.shape_list path, ⟨hlist.children, isLegacyElement_group _ e⟩, ?_⟩,
    hmap.shape_map path, ?_⟩
  · rw [hlist.exists_body_iff, column?_of_list (hlist.shape_list _), failure?_bind_ok,
      failure?_listColumn, memberFault?_eq_none_iff]
  · rw [hmap.exists_body_iff, column?_of_map (hmap.shape_map _), failure?_bind_ok,
      failure?_mapColumn, Option.or_eq_none_iff, memberFault?_eq_none_iff,
      memberFault?_eq_none_iff]

end ParquetStruct.Struct
