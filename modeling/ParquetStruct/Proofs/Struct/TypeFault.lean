/-
# ParquetStruct.Proofs.Struct.TypeFault — where errors about types come from.

Two errors are about the physical type of a single node: that it has none, and that it has one which
is not known.  Rendering looks at the types of field nodes and of the members of lists and maps,
and all of these are nodes of the tree, named by the end of the path they are looked at under.  So
an error about a type is the fault of some node of the tree, whatever way led to it.
-/
import ParquetStruct.Proofs.Struct.Fault

namespace ParquetStruct.Struct

variable {root n : Node} {path : FieldPath} {maxDepth : Nat} {e : SchemaError}

/-! ## Nodes under their paths -/

/-- A node of a tree, and a path that ends in its identifier. -/
structure IsAt (root : Node) (path : FieldPath) (n : Node) : Prop where
  isNodeOf : n.IsNodeOf root
  last : path.segments.getLast? = some (identifier n.name)

theorem isAt_root (root : Node) : IsAt root (.root (identifier root.name)) root :=
  ⟨root.isNodeOf_self, rfl⟩

theorem isAt_child (h : n.IsNodeOf root) (path : FieldPath) :
    IsAt root (path.child (identifier n.name)) n :=
  ⟨h, by rw [FieldPath.segments_child, List.getLast?_concat]⟩

/-- Field nodes are nodes of the tree under their paths. -/
theorem isAt_of_mem_treeNodes (root : Node) : ∀ x ∈ treeNodes root, IsAt root x.1 x.2 :=
  forall_mem_fieldNodes (fun path _ hn _ hc => isAt_child (hn.isNodeOf.child hc) path) root _
    (isAt_root root)

/-! ## Errors about types -/

/-- Whether an error is about the physical type of a node. -/
def isAboutType : SchemaError → Bool
  | .typeNotSet _ => true
  | .unknownPhysicalType _ _ => true
  | _ => false

theorem typeFault?_of_memberFault? {member : Node} {composite : SchemaError}
    (h : memberFault? member path composite = some e) (he : isAboutType e = true)
    (hcomposite : isAboutType composite = false) : typeFault? member path = some e := by
  rcases typeFault?_or_eq_of_memberFault? h with h | rfl
  · exact h
  · rw [hcomposite] at he
    cases he

/-- A fault of the members of a container that is about a type is about that of a member, which lies
one or two steps below the container. -/
theorem exists_typeFault?_of_membersFault? (hn : n.IsNodeOf root)
    (h : membersFault? n path = some e) (he : isAboutType e = true) :
    ∃ q m, IsAt root q m ∧ typeFault? m q = some e := by
  unfold membersFault? at h
  split at h
  · rename_i element _ hs
    obtain ⟨wrapper, hchildren, helement⟩ := Node.children_of_list hs
    have hwrapper : wrapper.IsNodeOf root := hn.child (hchildren ▸ List.mem_singleton_self wrapper)
    have hmember : element.IsNodeOf root := by
      rcases helement with rfl | helement
      · exact hwrapper
      · exact hwrapper.child (helement ▸ List.mem_singleton_self element)
    exact ⟨_, element, isAt_child hmember path, typeFault?_of_memberFault? h he rfl⟩
  · rename_i key value hs
    obtain ⟨entries, hchildren, hmembers⟩ := Node.children_of_map hs
    have hentries : entries.IsNodeOf root := hn.child (hchildren ▸ List.mem_singleton_self entries)
    have hmember : ∀ m ∈ [key, value], m.IsNodeOf root := fun m hm => hentries.child (hmembers ▸ hm)
    rw [List.forall_mem_cons, List.forall_mem_singleton] at hmember
    rcases Option.or_eq_some_iff.mp h with h | ⟨-, h⟩
    · exact ⟨_, key, isAt_child hmember.1 path, typeFault?_of_memberFault? h he rfl⟩
    · exact ⟨_, value, isAt_child hmember.2 path, typeFault?_of_memberFault? h he rfl⟩
  · cases h

/-- A fault of a field node that is about a type is about its own or about that of a member. -/
theorem exists_typeFault?_of_fault? (hn : IsAt root path n) (h : fault? maxDepth path n = some e)
    (he : isAboutType e = true) : ∃ q m, IsAt root q m ∧ typeFault? m q = some e := by
  rw [fault?, Option.or_eq_some_iff, Option.or_eq_some_iff, Option.or_eq_some_iff] at h
  rcases h with hdepth | ⟨-, htype | ⟨-, hlayout | ⟨-, hmembers⟩⟩⟩
  · -- The depth and the layout of a node have errors of their own.
    unfold depthFault? at hdepth
    split at hdepth
    · cases hdepth
      cases he
    · cases hdepth
  · exact ⟨path, n, hn, htype⟩
  · obtain ⟨container, -, hlayout⟩ := Option.bind_eq_some_iff.mp hlayout
    obtain ⟨fault, -, rfl⟩ := Option.map_eq_some_iff.mp hlayout
    cases he
  · exact exists_typeFault?_of_membersFault? hn.isNodeOf hmembers he

/-- If rendering ends in an error about a type, some node of the tree has that fault, under a path
that ends in its identifier. -/
theorem exists_typeFault?_of_body (h : body maxDepth root = .error e) (he : isAboutType e = true) :
    ∃ q m, IsAt root q m ∧ typeFault? m q = some e := by
  obtain ⟨before, x, after, hsplit, hfault, -⟩ := exists_fault?_of_body h
  have hx : x ∈ treeNodes root := hsplit ▸ List.mem_append_right before List.mem_cons_self
  exact exists_typeFault?_of_fault? (isAt_of_mem_treeNodes root x hx) hfault he

end ParquetStruct.Struct
