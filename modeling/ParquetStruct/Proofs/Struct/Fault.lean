/-
# ParquetStruct.Proofs.Struct.Fault — exactly when rendering fails, and with which error.

Each field node is judged by itself: it may lie too deep, have no type or an unknown one, lack the
layout that its annotation prescribes, or be a container of something else than scalars.  The first
of these that applies is its fault.  Rendering fails if some field node has a fault, and then with
the fault of the first such node in the order of `treeNodes`, in which every node comes before those
below it and before its later siblings.
-/
import ParquetStruct.Proofs.Struct.Column

namespace ParquetStruct.Struct

variable {n : Node} {path : FieldPath} {maxDepth : Nat}

/-! ## The fault of one field node -/

/-- The fault of a node that lies too deep below the root. -/
def depthFault? (maxDepth : Nat) (path : FieldPath) : Option SchemaError :=
  if maxDepth < path.depth then some (.depthExceeded maxDepth path) else none

/-- The fault of a node without a type, or with one that is not known. -/
def typeFault? (n : Node) (path : FieldPath) : Option SchemaError :=
  match n.physicalCode with
  | none => if n.children = [] then some (.typeNotSet path) else none
  | some code =>
    if code.toInt < 0 ∨ 7 < code.toInt then some (.unknownPhysicalType code path) else none

/-- How the child of a container departs from what is prescribed for it. -/
def childFault? (container : Container) (child : Node) : Option LayoutFault :=
  if child.repetitionType ≠ some .repeated then some (.notRepeated child.name)
  else if container = .map ∧ child.children.length ≠ 2 then
    some (.entryCount child.name child.children.length)
  else none

/-- How the children of a container depart from what is prescribed for them. -/
def childrenFault? (container : Container) (n : Node) : Option LayoutFault :=
  match n.children with
  | [child] => childFault? container child
  | children => some (.childCount children.length)

/-- The annotation that prescribes a layout for a node; LIST counts more than MAP. -/
def container? (n : Node) : Option Container :=
  if n.isListAnnotated then some .list else if n.isMapAnnotated then some .map else none

/-- The fault of a container without the prescribed layout. -/
def layoutFault? (n : Node) (path : FieldPath) : Option SchemaError :=
  (container? n).bind fun container =>
    (childrenFault? container n).map (.malformedContainer container path)

/-- The fault of a member of a container, which has to be a scalar. -/
def memberFault? (member : Node) (path : FieldPath) (composite : SchemaError) :
    Option SchemaError :=
  (typeFault? member path).or
    (if member.physicalCode = none ∨ container? member ≠ none then some composite else none)

/-- The fault of the element of a list, or of the key of a map and then of its value. -/
def membersFault? (n : Node) (path : FieldPath) : Option SchemaError :=
  match n.shape path with
  | .ok (.list element _) =>
    memberFault? element (path.child (identifier element.name)) (.compositeListElement path)
  | .ok (.map key value) =>
    (memberFault? key (path.child (identifier key.name)) (.compositeMapKey path)).or
      (memberFault? value (path.child (identifier value.name)) (.compositeMapValue path))
  | _ => none

/-- The first fault of a field node that applies. -/
def fault? (maxDepth : Nat) (path : FieldPath) (n : Node) : Option SchemaError :=
  (depthFault? maxDepth path).or
    ((typeFault? n path).or ((layoutFault? n path).or (membersFault? n path)))

/-! ## Classification -/

theorem failure?_physicalType? (n : Node) (path : FieldPath) :
    failure? (n.physicalType? path) = typeFault? n path := by
  unfold Node.physicalType? typeFault?
  cases n.physicalCode with
  | none => by_cases hc : n.children = [] <;> simp [hc]
  | some code =>
    dsimp only
    cases ht : PhysicalType.ofCode? code with
    | none => rw [if_pos (PhysicalType.ofCode?_eq_none_iff.mp ht), failure?_error]
    | some t =>
      have hin : ¬(code.toInt < 0 ∨ 7 < code.toInt) := by
        rw [← PhysicalType.ofCode?_eq_none_iff, ht]
        exact Option.some_ne_none t
      rw [if_neg hin, failure?_ok]

theorem isRepeated_iff {child : Node} :
    child.isRepeated = true ↔ child.repetitionType = some .repeated := by
  unfold Node.isRepeated Node.repetition
  cases child.repetitionType with
  | none => decide
  | some r => simp

theorem failure?_listShape (n : Node) (path : FieldPath) :
    failure? (n.listShape path) =
      (childrenFault? .list n).map (.malformedContainer .list path) := by
  unfold Node.listShape childrenFault?
  -- With a single child the outcome depends on the child, otherwise on their number alone.
  rcases n.children with _ | ⟨child, _ | ⟨_, _⟩⟩
  · rfl
  · dsimp only
    unfold childFault?
    by_cases hr : child.isRepeated = true
    · rw [if_pos hr, if_neg (not_not_intro (isRepeated_iff.mp hr)), if_neg (by simp)]
      split
      · rfl
      · rfl
    · rw [if_neg hr, if_pos (mt isRepeated_iff.mpr hr)]
      rfl
  · rfl

theorem failure?_mapShape (n : Node) (path : FieldPath) :
    failure? (n.mapShape path) =
      (childrenFault? .map n).map (.malformedContainer .map path) := by
  unfold Node.mapShape childrenFault?
  rcases n.children with _ | ⟨child, _ | ⟨_, _⟩⟩
  · rfl
  · dsimp only
    unfold childFault?
    by_cases hr : child.isRepeated = true
    · -- Only now is the child asked for its own children, which have to be two.
      rw [if_pos hr, if_neg (not_not_intro (isRepeated_iff.mp hr))]
      rcases child.children with _ | ⟨key, _ | ⟨value, _ | ⟨_, _⟩⟩⟩
      · rfl
      · rfl
      · rfl
      · rw [if_pos ⟨rfl, by simp⟩]
        rfl
    · rw [if_neg hr, if_pos (mt isRepeated_iff.mpr hr)]
      rfl
  · rfl

theorem container?_eq_none_iff :
    container? n = none ↔ n.isListAnnotated = false ∧ n.isMapAnnotated = false := by
  unfold container?
  cases n.isListAnnotated <;> cases n.isMapAnnotated <;> simp

theorem not_struct_of_container (hn : container? n ≠ none) :
    n.shape path ≠ .ok (.struct n.children) :=
  fun h => hn (container?_eq_none_iff.mpr (Node.shape_eq_struct_iff.mp h).2.2)

/-- A container is read in two steps: its type is looked up, whatever it is, and then its layout. -/
theorem shape_of_container {container : Container} (h : container? n = some container) :
    n.shape path = n.physicalType? path >>= fun _ =>
      match container with
      | .list => n.listShape path
      | .map => n.mapShape path := by
  unfold container? at h
  cases hl : n.isListAnnotated with
  | true =>
    rw [hl, if_pos rfl] at h
    cases h
    exact Node.shape_of_list hl
  | false =>
    cases hm : n.isMapAnnotated with
    | true =>
      rw [hl, hm, if_neg Bool.false_ne_true, if_pos rfl] at h
      cases h
      exact Node.shape_of_map hl hm
    | false =>
      rw [hl, hm] at h
      cases h

/-- Classification fails on the type of a node, or else on its layout. -/
theorem failure?_shape (n : Node) (path : FieldPath) :
    failure? (n.shape path) = (typeFault? n path).or (layoutFault? n path) := by
  rw [← failure?_physicalType?, layoutFault?]
  cases hc : container? n with
  | none =>
    obtain ⟨hl, hm⟩ := container?_eq_none_iff.mp hc
    rw [Node.shape_of_plain hl hm]
    exact failure?_bind fun _ _ => rfl
  | some container =>
    rw [shape_of_container hc]
    apply failure?_bind
    intro _ _
    cases container with
    | list => exact failure?_listShape n path
    | map => exact failure?_mapShape n path

/-! ## Columns -/

theorem failure?_memberType (member : Node) (path : FieldPath) (composite : SchemaError) :
    failure? (memberType member path composite) = memberFault? member path composite := by
  rw [memberType_eq, memberFault?, ← failure?_physicalType?]
  refine failure?_bind fun t ht => ?_
  have hcode : t = none ↔ member.physicalCode = none := by
    constructor
    · rintro rfl
      exact (Node.physicalType?_eq_none_iff.mp ht).1
    · intro hnone
      cases t with
      | none => rfl
      | some t => exact absurd (Node.physicalType?_eq_some_iff.mp ht) (by simp [hnone])
  unfold container?
  -- A member without a type is a struct, and one with a type is refused for an annotation only.
  cases t with
  | none => rw [if_pos (Or.inl (hcode.mp rfl)), failure?_error]
  | some t =>
    have hsome : member.physicalCode ≠ none := mt hcode.mpr (Option.some_ne_none t)
    cases member.isListAnnotated with
    | true => simp
    | false => cases member.isMapAnnotated <;> simp [hsome]

theorem column?_eq (n : Node) (path : FieldPath) :
    column? n path = n.shape path >>= fun s =>
      match s with
      | .scalar t => .ok (some (scalarColumn n t))
      | .struct _ => .ok none
      | .list element twoLevel => listColumn path element twoLevel >>= fun c => .ok (some c)
      | .map key value => mapColumn path key value >>= fun c => .ok (some c) := rfl

theorem failure?_listColumn (path : FieldPath) (element : Node) (twoLevel : Bool) :
    failure? (listColumn path element twoLevel) =
      memberFault? element (path.child (identifier element.name))
        (.compositeListElement path) := by
  rw [listColumn_eq, failure?_bind_ok, failure?_memberType]

theorem failure?_mapColumn (path : FieldPath) (key value : Node) :
    failure? (mapColumn path key value) =
      (memberFault? key (path.child (identifier key.name)) (.compositeMapKey path)).or
        (memberFault? value (path.child (identifier value.name)) (.compositeMapValue path)) := by
  rw [mapColumn_eq, ← failure?_memberType key, ← failure?_memberType value]
  exact failure?_bind fun _ _ => failure?_bind_ok

/-- Making a column fails on the node itself, or else on the members of a container. -/
theorem failure?_column? (n : Node) (path : FieldPath) :
    failure? (column? n path) =
      (typeFault? n path).or ((layoutFault? n path).or (membersFault? n path)) := by
  rw [← Option.or_assoc, ← failure?_shape, column?_eq, membersFault?]
  refine failure?_bind fun s hs => ?_
  rw [hs]
  cases s with
  | scalar t => rfl
  | struct cs => rfl
  | list element twoLevel =>
    dsimp only
    rw [failure?_bind_ok, failure?_listColumn]
  | map key value =>
    dsimp only
    rw [failure?_bind_ok, failure?_mapColumn]

theorem depthFault?_eq_none_iff : depthFault? maxDepth path = none ↔ path.depth ≤ maxDepth := by
  simp [depthFault?]

/-- The depth of a node is judged before its column. -/
theorem fault?_eq (maxDepth : Nat) (path : FieldPath) (n : Node) :
    fault? maxDepth path n = (depthFault? maxDepth path).or (failure? (column? n path)) := by
  rw [fault?, failure?_column?]

theorem fault?_of_depth (h : path.depth ≤ maxDepth) (n : Node) :
    fault? maxDepth path n = failure? (column? n path) := by
  rw [fault?_eq, depthFault?, if_neg (Nat.not_lt.mpr h), Option.none_or]

/-- A fault of a member is about its type, or is that of its being a container or a struct. -/
theorem typeFault?_or_eq_of_memberFault? {member : Node} {composite e : SchemaError}
    (h : memberFault? member path composite = some e) :
    typeFault? member path = some e ∨ e = composite := by
  rw [memberFault?, Option.or_eq_some_iff] at h
  rcases h with h | ⟨-, h⟩
  · exact Or.inl h
  · split at h
    · exact Or.inr (Option.some.inj h).symm
    · cases h

/-! ## The whole tree -/

/-- The fault of a field node, given together with its path. -/
def nodeFault? (maxDepth : Nat) (x : FieldPath × Node) : Option SchemaError :=
  fault? maxDepth x.1 x.2

theorem failure?_fields {cs : List Node}
    (ih : ∀ c ∈ cs, ∀ path, failure? (field maxDepth path c) =
      (fieldNodes path c).findSome? (nodeFault? maxDepth)) (path : FieldPath) :
    failure? (fields maxDepth path cs) =
      (fieldNodesBelow path cs).findSome? (nodeFault? maxDepth) := by
  induction cs with
  | nil => rfl
  | cons c cs ihcs =>
    -- The first fault of the child comes before those of its later siblings.
    rw [fields_cons, fieldNodesBelow_cons, List.findSome?_append, ← ih c List.mem_cons_self,
      ← ihcs fun d hd => ih d (List.mem_cons_of_mem c hd)]
    exact failure?_bind fun _ _ => failure?_bind_ok

/-- The walk from a node downwards fails with the first fault of its field nodes. -/
theorem failure?_field (maxDepth : Nat) (n : Node) : ∀ path,
    failure? (field maxDepth path n) = (fieldNodes path n).findSome? (nodeFault? maxDepth) := by
  induction n using Node.induction with
  | step n ih =>
    intro path
    rw [field_eq]
    -- The depth is judged before the node, and the node before those below it.
    by_cases hdepth : maxDepth < path.depth
    · have hfault : nodeFault? maxDepth (path, n) = some (.depthExceeded maxDepth path) := by
        rw [nodeFault?, fault?, depthFault?, if_pos hdepth, Option.some_or]
      rw [if_pos hdepth, failure?_error, fieldNodes_eq, List.findSome?_cons, hfault]
    · have hfault : nodeFault? maxDepth (path, n) = failure? (column? n path) :=
        fault?_of_depth (Nat.le_of_not_lt hdepth) n
      rw [if_neg hdepth]
      cases hc : column? n path with
      | error e =>
        rw [hc, failure?_error] at hfault
        rw [error_bind, failure?_error, fieldNodes_eq, List.findSome?_cons, hfault]
      | ok c =>
        rw [hc, failure?_ok] at hfault
        rw [ok_bind]
        cases c with
        | some c =>
          rw [fieldNodes_of_not_struct (not_struct_of_column? hc), List.findSome?_cons, hfault]
          rfl
        | none =>
          -- A struct without a fault of its own fails as its children do.
          rw [fieldNodes_of_struct (shape_of_column?_none hc), List.findSome?_cons, hfault,
            ← failure?_fields ih]
          exact failure?_bind_ok

/-- The root lies at depth zero, so it is judged like every other field node. -/
theorem failure?_body_eq (maxDepth : Nat) (root : Node) :
    failure? (body maxDepth root) =
      failure? (field maxDepth (.root (identifier root.name)) root) := by
  rw [body_eq, field_eq, FieldPath.depth_root, if_neg (Nat.not_lt_zero maxDepth)]
  cases column? root (.root (identifier root.name)) with
  | error e => rfl
  | ok c =>
    cases c with
    | some c => rfl
    | none =>
      simp only [ok_bind]
      cases fields maxDepth (.root (identifier root.name)) root.children with
      | error e => rfl
      | ok fs => rfl

theorem failure?_body (maxDepth : Nat) (root : Node) :
    failure? (body maxDepth root) = (treeNodes root).findSome? (nodeFault? maxDepth) := by
  rw [failure?_body_eq, failure?_field]
  rfl

theorem fault?_eq_none_of_body {root : Node} {b : Body} (h : body maxDepth root = .ok b) :
    ∀ x ∈ treeNodes root, fault? maxDepth x.1 x.2 = none := by
  rw [← List.findSome?_eq_none_iff]
  show (treeNodes root).findSome? (nodeFault? maxDepth) = none
  rw [← failure?_body, h, failure?_ok]

/-- An error of the rendering is the fault of a field node, and no earlier one has a fault. -/
theorem exists_fault?_of_body {root : Node} {e : SchemaError}
    (h : body maxDepth root = .error e) :
    ∃ before x after, treeNodes root = before ++ x :: after ∧
      fault? maxDepth x.1 x.2 = some e ∧ ∀ y ∈ before, fault? maxDepth y.1 y.2 = none := by
  rw [← failure?_eq_some_iff, failure?_body, List.findSome?_eq_some_iff] at h
  exact h

/-- Rendering succeeds exactly if no field node has a fault, and otherwise fails with the fault of
the first one that has. -/
theorem body_outcome (maxDepth : Nat) (root : Node) :
    ((∃ b, body maxDepth root = .ok b) ↔
        ∀ x ∈ treeNodes root, fault? maxDepth x.1 x.2 = none) ∧
      ∀ e, body maxDepth root = .error e ↔
        ∃ before x after, treeNodes root = before ++ x :: after ∧
          fault? maxDepth x.1 x.2 = some e ∧ ∀ y ∈ before, fault? maxDepth y.1 y.2 = none := by
  have hfailure : failure? (body maxDepth root) =
      (treeNodes root).findSome? (nodeFault? maxDepth) := by
    rw [failure?_body_eq, failure?_field]
    rfl
  constructor
  · rw [← failure?_eq_none_iff, hfailure, List.findSome?_eq_none_iff]
    rfl
  · intro e
    rw [← failure?_eq_some_iff, hfailure, List.findSome?_eq_some_iff]
    rfl

end ParquetStruct.Struct
