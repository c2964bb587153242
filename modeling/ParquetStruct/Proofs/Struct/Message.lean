/-
# ParquetStruct.Proofs.Struct.Message — the errors of rendering can be told from their messages.

Every path that rendering comes to starts at the root and goes on with identifiers, whatever the raw
names are; so it is plain, and an error that names it has a message of its own.  Raw names come into
messages too, but only behind the path.
-/
import ParquetStruct.Proofs.Schema.Message
import ParquetStruct.Proofs.Struct.Fault

namespace ParquetStruct.Struct

variable {root n : Node} {path : FieldPath} {d d' : Nat} {e e' : SchemaError}

/-! ## Paths of identifiers -/

theorem not_mem_identifier {c : Char} (hc : isIdentifierChar c = false) (name : String) :
    c ∉ (identifier name).toList := by
  intro hmem
  rw [isIdentifierChar_of_mem_identifier c hmem] at hc
  cases hc

theorem isPlain_root (name : String) : (FieldPath.root (identifier name)).IsPlain where
  ne_nil := List.cons_ne_nil _ _
  noDot := List.forall_mem_singleton.mpr (not_mem_identifier (by decide) name)
  noBracket := List.forall_mem_singleton.mpr (not_mem_identifier (by decide) name)

theorem isPlain_child (h : path.IsPlain) (name : String) :
    (path.child (identifier name)).IsPlain where
  ne_nil := List.append_ne_nil_of_right_ne_nil _ (List.cons_ne_nil _ _)
  noDot := List.forall_mem_append.mpr
    ⟨h.noDot, List.forall_mem_singleton.mpr (not_mem_identifier (by decide) name)⟩
  noBracket := List.forall_mem_append.mpr
    ⟨h.noBracket, List.forall_mem_singleton.mpr (not_mem_identifier (by decide) name)⟩

/-- The paths of field nodes are plain, whatever the nodes are called. -/
theorem isPlain_of_mem_treeNodes (root : Node) : ∀ x ∈ treeNodes root, x.1.IsPlain :=
  forall_mem_fieldNodes (P := fun path _ => path.IsPlain)
    (fun _ _ hpath c _ => isPlain_child hpath c.name) root _ (isPlain_root root.name)

/-! ## Paths of errors -/

theorem path_of_depthFault? (h : depthFault? d path = some e) : e.path = path := by
  unfold depthFault? at h
  split at h
  · cases h
    rfl
  · cases h

theorem path_of_typeFault? (h : typeFault? n path = some e) : e.path = path := by
  unfold typeFault? at h
  split at h
  · split at h
    · cases h
      rfl
    · cases h
  · split at h
    · cases h
      rfl
    · cases h

theorem path_of_layoutFault? (h : layoutFault? n path = some e) : e.path = path := by
  obtain ⟨container, -, h⟩ := Option.bind_eq_some_iff.mp h
  obtain ⟨fault, -, rfl⟩ := Option.map_eq_some_iff.mp h
  rfl

/-- A fault of a member is found at the member, or at the container. -/
theorem path_of_memberFault? {member : Node} {composite : SchemaError}
    (h : memberFault? member (path.child (identifier member.name)) composite = some e)
    (hcomposite : composite.path = path) :
    e.path = path ∨ ∃ name, e.path = path.child (identifier name) := by
  rcases typeFault?_or_eq_of_memberFault? h with h | rfl
  · exact Or.inr ⟨member.name, path_of_typeFault? h⟩
  · exact Or.inl hcomposite

theorem path_of_membersFault? (h : membersFault? n path = some e) :
    e.path = path ∨ ∃ name, e.path = path.child (identifier name) := by
  unfold membersFault? at h
  split at h
  · exact path_of_memberFault? h rfl
  · rcases Option.or_eq_some_iff.mp h with h | ⟨-, h⟩
    · exact path_of_memberFault? h rfl
    · exact path_of_memberFault? h rfl
  · cases h

/-- An error names the field node that it is the fault of, or a member right below it. -/
theorem path_of_fault? (h : fault? d path n = some e) :
    e.path = path ∨ ∃ name, e.path = path.child (identifier name) := by
  rw [fault?, Option.or_eq_some_iff, Option.or_eq_some_iff, Option.or_eq_some_iff] at h
  rcases h with hdepth | ⟨-, htype | ⟨-, hlayout | ⟨-, hmembers⟩⟩⟩
  · exact Or.inl (path_of_depthFault? hdepth)
  · exact Or.inl (path_of_typeFault? htype)
  · exact Or.inl (path_of_layoutFault? hlayout)
  · exact path_of_membersFault? hmembers

/-- The errors of rendering name plain paths. -/
theorem isPlain_of_body (h : body d root = .error e) : e.path.IsPlain := by
  obtain ⟨before, x, after, hsplit, hfault, -⟩ := exists_fault?_of_body h
  have hx : x.1.IsPlain :=
    isPlain_of_mem_treeNodes root x (hsplit ▸ List.mem_append_right before List.mem_cons_self)
  rcases path_of_fault? hfault with hpath | ⟨name, hpath⟩
  · rwa [hpath]
  · rw [hpath]
    exact isPlain_child hx name

/-! ## Messages -/

/-- If two trees cannot be rendered, under whatever limits, and both for the same message, then both
for the same error: at the same path, and for the same reason. -/
theorem error_eq_of_message_eq {root root' : Node} (h : body d root = .error e)
    (h' : body d' root' = .error e') (hmessage : e.message = e'.message) : e = e' :=
  SchemaError.eq_of_message_eq (isPlain_of_body h) (isPlain_of_body h') hmessage

/-- A list whose only child is not repeated, under a name that reads like the end of a message. -/
def unrepeatedList (name : String) : Node :=
  { name, convertedType := some .list,
    children := [{ name := "]: child `x` is not repeated", physicalCode := some 1 }] }

theorem error_eq_unrepeatedList : ∃ e e',
    body 1 (.root "row" [unrepeatedList "tags"]) = .error e ∧
      body 64 (.root "Row" [.primitive "id" .int64 .required, unrepeatedList "Tags"]) = .error e' ∧
      e.message = e'.message ∧ e = e' := by
  have h : body 1 (.root "row" [unrepeatedList "tags"]) =
      .error (.malformedContainer .list ⟨["Row", "Tags"]⟩
        (.notRepeated "]: child `x` is not repeated")) := rfl
  have h' : body 64 (.root "Row" [.primitive "id" .int64 .required, unrepeatedList "Tags"]) =
      .error (.malformedContainer .list ⟨["Row", "Tags"]⟩
        (.notRepeated "]: child `x` is not repeated")) := rfl
  exact ⟨_, _, h, h', rfl, error_eq_of_message_eq h h' rfl⟩

end ParquetStruct.Struct
