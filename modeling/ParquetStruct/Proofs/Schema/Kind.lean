/-
# ParquetStruct.Proofs.Schema.Kind — the kind of a node and its shape agree.

Two functions say what a node stands for.  `Node.kind` looks at the node alone, `Node.shape` also at
the layout below it, and each has the precedence of annotations and physical type written out for
itself.  Both read the physical type first, and fail there in the same way.  What comes after it is
put side by side here as two functions of the type that was read: the shape that is found has the
kind that is given, and what else can go wrong with the shape is a fault in the layout of a container
of just that kind.
-/
import ParquetStruct.Proofs.Schema.Shape
import Mathlib.Tactic.SplitIfs

namespace ParquetStruct

/-- The kind of the nodes that bear a container annotation. -/
def Container.kind : Container → Kind
  | .list => .list
  | .map => .map

namespace Node

variable {n : Node} {p : FieldPath} {e : SchemaError} {physical : Option PhysicalType}

/-! ## After the physical type -/

/-- The kind of a node whose physical type was read. -/
def kindWith (n : Node) (physical : Option PhysicalType) : Kind :=
  if n.isListAnnotated then .list
  else if n.isMapAnnotated then .map
  else if physical.isSome then .scalar
  else .struct

/-- The shape of a node whose physical type was read. -/
def shapeWith (n : Node) (p : FieldPath) (physical : Option PhysicalType) :
    Except SchemaError Shape :=
  if n.isListAnnotated then n.listShape p
  else if n.isMapAnnotated then n.mapShape p
  else .ok (physical.elim (.struct n.children) .scalar)

theorem kind_eq : n.kind p = n.physicalType? p >>= fun t => .ok (n.kindWith t) := by
  unfold kind
  congr 1
  funext t
  show _ = Except.ok (n.kindWith t)
  unfold kindWith
  split_ifs <;> rfl

theorem shape_eq : n.shape p = n.physicalType? p >>= n.shapeWith p := by
  unfold shape
  congr 1
  funext t
  cases t with
  | none => rfl
  | some t => rfl

/-- The shape that is found has the kind that is given. -/
theorem kind_of_shapeWith {s : Shape} (h : n.shapeWith p physical = .ok s) :
    s.kind = n.kindWith physical := by
  unfold shapeWith at h
  unfold kindWith
  split_ifs at h ⊢ with hl hm ht
  · exact kind_of_listShape h
  · exact kind_of_mapShape h
  · obtain ⟨t, rfl⟩ := Option.isSome_iff_exists.mp ht
    cases h
    rfl
  · rw [Option.not_isSome_iff_eq_none.mp ht] at h
    cases h
    rfl

/-- What can go wrong with the layout of a list. -/
theorem listShape_eq_error (h : n.listShape p = .error e) :
    ∃ fault, e = .malformedContainer .list p fault := by
  unfold listShape at h
  split at h
  · split at h
    · split at h <;> cases h
    · cases h
      exact ⟨_, rfl⟩
  · cases h
    exact ⟨_, rfl⟩

/-- What can go wrong with the layout of a map. -/
theorem mapShape_eq_error (h : n.mapShape p = .error e) :
    ∃ fault, e = .malformedContainer .map p fault := by
  unfold mapShape at h
  split at h
  · split at h
    · split at h
      · cases h
      · cases h
        exact ⟨_, rfl⟩
    · cases h
      exact ⟨_, rfl⟩
  · cases h
    exact ⟨_, rfl⟩

/-- What can go wrong with the shape is a fault in the layout of a container of the given kind. -/
theorem shapeWith_eq_error (h : n.shapeWith p physical = .error e) :
    ∃ container fault, e = .malformedContainer container p fault ∧
      n.kindWith physical = container.kind := by
  unfold shapeWith at h
  unfold kindWith
  split_ifs at h ⊢
  · obtain ⟨fault, rfl⟩ := listShape_eq_error h
    exact ⟨.list, fault, rfl, rfl⟩
  · obtain ⟨fault, rfl⟩ := mapShape_eq_error h
    exact ⟨.map, fault, rfl, rfl⟩

/-! ## The physical type -/

/-- What can go wrong with the physical type of a node. -/
theorem physicalType?_eq_error (h : n.physicalType? p = .error e) :
    e = .typeNotSet p ∨ ∃ code, e = .unknownPhysicalType code p := by
  unfold physicalType? at h
  split at h
  · split at h
    · cases h
      exact Or.inl rfl
    · cases h
  · split at h
    · cases h
    · cases h
      exact Or.inr ⟨_, rfl⟩

/-- The kind of a node cannot be given exactly if its physical type cannot be read. -/
theorem kind_eq_error_iff : n.kind p = .error e ↔ n.physicalType? p = .error e := by
  rw [kind_eq, bind_eq_error_iff]
  simp

/-- The kind of a node follows from its physical type. -/
theorem kind_eq_ok_iff {k : Kind} :
    n.kind p = .ok k ↔ ∃ t, n.physicalType? p = .ok t ∧ n.kindWith t = k := by
  rw [kind_eq, bind_eq_ok_iff]
  simp

/-! ## Both together -/

/-- The shape of a node has the kind of the node. -/
theorem kind_of_shape {s : Shape} (h : n.shape p = .ok s) : n.kind p = .ok s.kind := by
  rw [shape_eq, bind_eq_ok_iff] at h
  obtain ⟨t, ht, hs⟩ := h
  exact kind_eq_ok_iff.mpr ⟨t, ht, (kind_of_shapeWith hs).symm⟩

/-- The shape of a node cannot be found if its physical type cannot be read, and else for a fault in
the layout of a container of its kind. -/
theorem shape_eq_error (h : n.shape p = .error e) :
    n.physicalType? p = .error e ∨
      ∃ container fault, e = .malformedContainer container p fault ∧
        n.kind p = .ok container.kind := by
  rw [shape_eq, bind_eq_error_iff] at h
  rcases h with h | ⟨t, ht, hs⟩
  · exact Or.inl h
  · obtain ⟨container, fault, he, hk⟩ := shapeWith_eq_error hs
    exact Or.inr ⟨container, fault, he, kind_eq_ok_iff.mpr ⟨t, ht, hk⟩⟩

/-- Kind and shape fail for the same reason, if this reason is the physical type of the node. -/
theorem kind_eq_error_iff_shape :
    n.kind p = .error e ↔ n.shape p = .error e ∧
      ((∃ q, e = .typeNotSet q) ∨ ∃ code q, e = .unknownPhysicalType code q) := by
  rw [kind_eq_error_iff]
  constructor
  · intro h
    refine ⟨?_, ?_⟩
    · rw [shape_eq, h]
      rfl
    · rcases physicalType?_eq_error h with he | ⟨code, he⟩
      · exact Or.inl ⟨p, he⟩
      · exact Or.inr ⟨code, p, he⟩
  · rintro ⟨h, he⟩
    rcases shape_eq_error h with ht | ⟨container, fault, rfl, -⟩
    · exact ht
    · -- A fault of the layout is neither of the two errors.
      rcases he with ⟨_, he⟩ | ⟨_, _, he⟩ <;> cases he

/-- A fault in the layout of a container is found in nodes of its kind only. -/
theorem kind_of_malformed {container : Container} {q : FieldPath} {fault : LayoutFault}
    (h : n.shape p = .error (.malformedContainer container q fault)) :
    n.kind p = .ok container.kind := by
  rcases shape_eq_error h with ht | ⟨_, _, he, hk⟩
  · rcases physicalType?_eq_error ht with he | ⟨_, he⟩ <;> cases he
  · cases he
    exact hk

/-- The nodes of the kind of a scalar have the shape of their physical type. -/
theorem shape_of_kind_scalar (h : n.kind p = .ok .scalar) :
    ∃ t, n.physicalType? p = .ok (some t) ∧ n.shape p = .ok (.scalar t) := by
  obtain ⟨physical, hphysical, hk⟩ := kind_eq_ok_iff.mp h
  unfold kindWith at hk
  split_ifs at hk with hl hm ht
  obtain ⟨t, rfl⟩ := Option.isSome_iff_exists.mp ht
  refine ⟨t, hphysical, ?_⟩
  rw [shape_of_plain (eq_false_of_ne_true hl) (eq_false_of_ne_true hm), hphysical]
  rfl

/-- The nodes of the kind of a struct have no physical type, and the shape of their children. -/
theorem shape_of_kind_struct (h : n.kind p = .ok .struct) :
    n.physicalType? p = .ok none ∧ n.shape p = .ok (.struct n.children) := by
  obtain ⟨physical, hphysical, hk⟩ := kind_eq_ok_iff.mp h
  unfold kindWith at hk
  split_ifs at hk with hl hm ht
  obtain rfl := Option.not_isSome_iff_eq_none.mp ht
  refine ⟨hphysical, ?_⟩
  rw [shape_of_plain (eq_false_of_ne_true hl) (eq_false_of_ne_true hm), hphysical]
  rfl

/-! ## Where the members are -/

/-- The element of a list is the first child of the node, or the first child of that. -/
theorem descendant_of_list {element : Node} {twoLevel : Bool}
    (h : n.shape p = .ok (.list element twoLevel)) :
    n.descendant (if twoLevel then [0] else [0, 0]) = some element := by
  obtain ⟨repeated, hchildren, hmember⟩ := children_of_listShape (listShape_of_shape h rfl)
  cases twoLevel with
  | true =>
    show n.descendant [0] = some element
    obtain rfl : repeated = element := hmember
    simp [hchildren]
  | false =>
    show n.descendant [0, 0] = some element
    have hmember : repeated.children = [element] := hmember
    simp [hchildren, hmember]

/-- The key and the value of a map are the first two children of the first child of the node. -/
theorem descendant_of_map {key value : Node} (h : n.shape p = .ok (.map key value)) :
    n.descendant [0, 0] = some key ∧ n.descendant [0, 1] = some value := by
  obtain ⟨entries, hentries, hmembers⟩ := children_of_map h
  simp [hentries, hmembers]

/-- The kind and the shape of a node never disagree.  The shape has the kind; both fail alike over
the physical type; a fault in the layout of a list or of a map leaves the kind of a list or of a map;
scalars and structs have a shape, and only scalars a physical type; and the members of lists and maps
are descendants of the node at fixed places. -/
theorem shape_refines_kind (n : Node) (p : FieldPath) :
    (∀ s, n.shape p = .ok s → n.kind p = .ok s.kind) ∧
      (∀ e, n.kind p = .error e ↔ n.shape p = .error e ∧
        ((∃ q, e = .typeNotSet q) ∨ ∃ code q, e = .unknownPhysicalType code q)) ∧
      (∀ container q fault, n.shape p = .error (.malformedContainer container q fault) →
        n.kind p = .ok container.kind) ∧
      (n.kind p = .ok .scalar →
        ∃ t, n.physicalType? p = .ok (some t) ∧ n.shape p = .ok (.scalar t)) ∧
      (n.kind p = .ok .struct →
        n.physicalType? p = .ok none ∧ n.shape p = .ok (.struct n.children)) ∧
      (∀ element twoLevel, n.shape p = .ok (.list element twoLevel) →
        n.descendant (if twoLevel then [0] else [0, 0]) = some element) ∧
      ∀ key value, n.shape p = .ok (.map key value) →
        n.descendant [0, 0] = some key ∧ n.descendant [0, 1] = some value := by
  refine ⟨?_, ?_, ?_, ?_, ?_, ?_, ?_⟩
  · intro s h
    exact kind_of_shape h
  · intro e
    exact kind_eq_error_iff_shape
  · intro container q fault h
    exact kind_of_malformed h
  · exact shape_of_kind_scalar
  · exact shape_of_kind_struct
  · intro element twoLevel h
    exact descendant_of_list h
  · intro key value h
    exact descendant_of_map h

/-- A repeated group with one child, under a name that legacy writers gave to elements. -/
def legacyTuple : Node :=
  { name := "tags_tuple", repetitionType := some .repeated,
    children := [.primitive "element" .int32 .optional] }

/-- A node that is annotated as a map and as a list, and has a physical type besides. -/
def contradictory : Node :=
  { name := "tags", physicalCode := some 6, convertedType := some .map, logicalType := some .list,
    children := [legacyTuple] }

/-- The same node annotated as a map only, so that its entries lack a value. -/
def valuelessMap : Node := { contradictory with logicalType := none }

theorem shape_refines_kind_contradictory :
    (contradictory.shape (.root "Tags") = .ok (.list legacyTuple true) ∧
      contradictory.kind (.root "Tags") = .ok .list ∧
      contradictory.descendant [0] = some legacyTuple) ∧
    valuelessMap.shape (.root "Tags") =
      .error (.malformedContainer .map (.root "Tags") (.entryCount "tags_tuple" 1)) ∧
    valuelessMap.kind (.root "Tags") = .ok .map := by
  have hlist : contradictory.shape (.root "Tags") = .ok (.list legacyTuple true) := rfl
  have hmap : valuelessMap.shape (.root "Tags") =
      .error (.malformedContainer .map (.root "Tags") (.entryCount "tags_tuple" 1)) := rfl
  obtain ⟨hkind, -, -, -, -, hmember, -⟩ := shape_refines_kind contradictory (.root "Tags")
  obtain ⟨-, -, hmalformed, -⟩ := shape_refines_kind valuelessMap (.root "Tags")
  exact ⟨⟨hlist, hkind _ hlist, hmember _ _ hlist⟩, hmap, hmalformed _ _ _ hmap⟩

end Node

end ParquetStruct
