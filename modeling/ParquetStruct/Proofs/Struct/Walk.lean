/-
# ParquetStruct.Proofs.Struct.Walk — the field nodes of a tree, and one step of the walk over them.

The field nodes of a tree are its root and, below every field node that is a struct, all its
children; each has a path, made of the identifiers from the root down.  `fieldNodes` lists them with
their paths, every node before those below it.  The walk takes one step at a field node: it refuses
it for its depth, turns it into a column, or goes on to its children.  The lemmas here say what
each step yields, and later proofs do not open the walk again.
-/
import ParquetStruct.Proofs.Schema.Node
import ParquetStruct.Proofs.Schema.Shape
import ParquetStruct.Struct.Declaration

namespace ParquetStruct.Struct

variable {n : Node} {path : FieldPath} {maxDepth : Nat}

/-! ## Field nodes -/

mutual

/-- The field nodes from a node downwards, with their paths, each before those below it. -/
def fieldNodes (path : FieldPath) : Node → List (FieldPath × Node)
  | n@⟨_, _, _, _, _, _, children⟩ =>
    (path, n) ::
      match n.shape path with
      | .ok (.struct _) => fieldNodesBelow path children
      | _ => []

/-- The field nodes from the children of a struct downwards; the path is that of the struct. -/
def fieldNodesBelow (path : FieldPath) : List Node → List (FieldPath × Node)
  | [] => []
  | c :: cs => fieldNodes (path.child (identifier c.name)) c ++ fieldNodesBelow path cs

end

/-- The field nodes of a tree, given by its root. -/
def treeNodes (root : Node) : List (FieldPath × Node) :=
  fieldNodes (.root (identifier root.name)) root

theorem fieldNodes_eq (path : FieldPath) (n : Node) :
    fieldNodes path n =
      (path, n) ::
        match n.shape path with
        | .ok (.struct _) => fieldNodesBelow path n.children
        | _ => [] := by
  cases n
  rw [fieldNodes]

theorem fieldNodes_of_struct (h : n.shape path = .ok (.struct n.children)) :
    fieldNodes path n = (path, n) :: fieldNodesBelow path n.children := by
  rw [fieldNodes_eq, h]

theorem fieldNodes_of_not_struct (h : n.shape path ≠ .ok (.struct n.children)) :
    fieldNodes path n = [(path, n)] := by
  rw [fieldNodes_eq]
  split
  · rename_i cs hs
    rw [(Node.shape_eq_struct_iff.mp hs).1] at hs
    exact absurd hs h
  · rfl

theorem mem_fieldNodes_self (path : FieldPath) (n : Node) : (path, n) ∈ fieldNodes path n := by
  rw [fieldNodes_eq]
  exact List.mem_cons_self

@[simp] theorem fieldNodesBelow_cons (c : Node) (cs : List Node) :
    fieldNodesBelow path (c :: cs) =
      fieldNodes (path.child (identifier c.name)) c ++ fieldNodesBelow path cs := rfl

theorem forall_mem_fieldNodesBelow {P : FieldPath → Node → Prop} {cs : List Node}
    (ih : ∀ c ∈ cs, ∀ path, P path c → ∀ x ∈ fieldNodes path c, P x.1 x.2)
    (hcs : ∀ c ∈ cs, P (path.child (identifier c.name)) c) :
    ∀ x ∈ fieldNodesBelow path cs, P x.1 x.2 := by
  induction cs with
  | nil => exact nofun
  | cons c cs ihcs =>
    rw [List.forall_mem_cons] at ih hcs
    rw [fieldNodesBelow_cons, List.forall_mem_append]
    exact ⟨ih.1 _ hcs.1, ihcs ih.2 hcs.2⟩

/-- What holds of a node at its path, and is handed on from any node to its children, holds of all
field nodes from the node downwards. -/
theorem forall_mem_fieldNodes {P : FieldPath → Node → Prop}
    (hchild : ∀ path n, P path n → ∀ c ∈ n.children, P (path.child (identifier c.name)) c)
    (n : Node) : ∀ path, P path n → ∀ x ∈ fieldNodes path n, P x.1 x.2 := by
  induction n using Node.induction with
  | step n ih =>
    intro path hn
    by_cases hs : n.shape path = .ok (.struct n.children)
    · rw [fieldNodes_of_struct hs, List.forall_mem_cons]
      exact ⟨hn, forall_mem_fieldNodesBelow ih (hchild path n hn)⟩
    · rw [fieldNodes_of_not_struct hs, List.forall_mem_singleton]
      exact hn

/-! ## Members of containers -/

theorem memberType_eq (n : Node) (path : FieldPath) (composite : SchemaError) :
    memberType n path composite =
      n.physicalType? path >>= fun t =>
        match t with
        | some t => if n.isListAnnotated || n.isMapAnnotated then .error composite else .ok t
        | none => .error composite := by
  -- The kind of a node is a scalar if there is a type and neither annotation.
  unfold memberType Node.kind
  cases n.physicalType? path with
  | error e => rfl
  | ok t => cases t <;> cases n.isListAnnotated <;> cases n.isMapAnnotated <;> rfl

/-- A member of a container is accepted exactly if it is a scalar. -/
theorem memberType_eq_ok_iff {composite : SchemaError} {t : PhysicalType} :
    memberType n path composite = .ok t ↔ n.shape path = .ok (.scalar t) := by
  rw [Node.shape_eq_scalar_iff, ← Node.physicalType?_eq_some_iff (p := path), memberType_eq,
    bind_eq_ok_iff]
  constructor
  · rintro ⟨t', ht, h⟩
    cases t' with
    | none => cases h
    | some u => cases hl : n.isListAnnotated <;> cases hm : n.isMapAnnotated <;> simp_all
  · rintro ⟨ht, hl, hm⟩
    exact ⟨some t, ht, by simp [hl, hm]⟩

/-! ## Columns -/

theorem column?_of_scalar {t : PhysicalType} (h : n.shape path = .ok (.scalar t)) :
    column? n path = .ok (some (scalarColumn n t)) := by
  rw [column?, h]
  rfl

theorem column?_of_struct {cs : List Node} (h : n.shape path = .ok (.struct cs)) :
    column? n path = .ok none := by
  rw [column?, h]
  rfl

theorem not_struct_of_column? {c : Column} (h : column? n path = .ok (some c)) :
    n.shape path ≠ .ok (.struct n.children) := by
  intro hs
  rw [column?_of_struct hs] at h
  cases h

theorem column?_of_list {element : Node} {twoLevel : Bool}
    (h : n.shape path = .ok (.list element twoLevel)) :
    column? n path = listColumn path element twoLevel >>= fun c => .ok (some c) := by
  rw [column?, h]
  rfl

theorem column?_of_map {key value : Node} (h : n.shape path = .ok (.map key value)) :
    column? n path = mapColumn path key value >>= fun c => .ok (some c) := by
  rw [column?, h]
  rfl

theorem column?_of_error {e : SchemaError} (h : n.shape path = .error e) :
    column? n path = .error e := by
  rw [column?, h]
  rfl

/-- A node without a column of its own is a struct. -/
theorem shape_of_column?_none (h : column? n path = .ok none) :
    n.shape path = .ok (.struct n.children) := by
  cases hs : n.shape path with
  | error e => rw [column?_of_error hs] at h; cases h
  | ok s =>
    cases s with
    | scalar t => rw [column?_of_scalar hs] at h; cases h
    | struct cs => rw [(Node.shape_eq_struct_iff.mp hs).1]
    | list element twoLevel =>
      rw [column?_of_list hs, bind_eq_ok_iff] at h
      obtain ⟨_, -, hc⟩ := h
      cases hc
    | map key value =>
      rw [column?_of_map hs, bind_eq_ok_iff] at h
      obtain ⟨_, -, hc⟩ := h
      cases hc

/-! ## One step of the walk -/

/-- The field of a node with a column of its own. -/
def columnField (n : Node) (c : Column) : Field :=
  .column (identifier n.name) n.repetition c.type (fieldTag n c.own c.members)

/-- The field of a struct, given the fields of its children. -/
def groupField (n : Node) (fs : List Field) : Field :=
  .group (identifier n.name) n.repetition fs (fieldTag n {} {})

theorem field_eq (maxDepth : Nat) (path : FieldPath) (n : Node) :
    field maxDepth path n =
      if maxDepth < path.depth then .error (.depthExceeded maxDepth path)
      else
        column? n path >>= fun c =>
          match c with
          | some c => .ok (columnField n c)
          | none => fields maxDepth path n.children >>= fun fs => .ok (groupField n fs) := by
  cases n
  rw [field]
  split
  · rfl
  · cases column? _ path with
    | error e => rfl
    | ok c => cases c <;> rfl

theorem fields_cons (maxDepth : Nat) (path : FieldPath) (c : Node) (cs : List Node) :
    fields maxDepth path (c :: cs) =
      field maxDepth (path.child (identifier c.name)) c >>= fun f =>
        fields maxDepth path cs >>= fun fs => .ok (f :: fs) := rfl

theorem body_eq (maxDepth : Nat) (root : Node) :
    body maxDepth root =
      column? root (.root (identifier root.name)) >>= fun c =>
        match c with
        | some c => .ok (.column c.type)
        | none =>
          fields maxDepth (.root (identifier root.name)) root.children >>= fun fs =>
            .ok (.struct fs) := by
  rw [body]
  cases column? root (.root (identifier root.name)) with
  | error e => rfl
  | ok c => cases c <;> rfl

/-- A node that yields a field is a column, or a struct whose children yield fields. -/
theorem field_eq_ok {f : Field} (h : field maxDepth path n = .ok f) :
    path.depth ≤ maxDepth ∧
      ((∃ c, column? n path = .ok (some c) ∧ f = columnField n c) ∨
        ∃ fs, n.shape path = .ok (.struct n.children) ∧ fields maxDepth path n.children = .ok fs ∧
          f = groupField n fs) := by
  rw [field_eq] at h
  split at h
  · cases h
  · rename_i hdepth
    refine ⟨Nat.le_of_not_lt hdepth, ?_⟩
    obtain ⟨c, hc, hf⟩ := bind_eq_ok_iff.mp h
    cases c with
    | some c =>
      cases hf
      exact Or.inl ⟨c, hc, rfl⟩
    | none =>
      obtain ⟨fs, hfs, hf⟩ := bind_eq_ok_iff.mp hf
      cases hf
      exact Or.inr ⟨fs, shape_of_column?_none hc, hfs, rfl⟩

theorem fields_cons_eq_ok {c : Node} {cs : List Node} {fs : List Field}
    (h : fields maxDepth path (c :: cs) = .ok fs) :
    ∃ f gs, field maxDepth (path.child (identifier c.name)) c = .ok f ∧
      fields maxDepth path cs = .ok gs ∧ fs = f :: gs := by
  rw [fields_cons, bind_eq_ok_iff] at h
  obtain ⟨f, hf, h⟩ := h
  obtain ⟨gs, hgs, h⟩ := bind_eq_ok_iff.mp h
  cases h
  exact ⟨f, gs, hf, hgs, rfl⟩

/-- A root that yields a body is a column, or a struct whose children yield fields. -/
theorem body_eq_ok {root : Node} {b : Body} (h : body maxDepth root = .ok b) :
    (∃ c, column? root (.root (identifier root.name)) = .ok (some c) ∧ b = .column c.type) ∨
      ∃ fs, root.shape (.root (identifier root.name)) = .ok (.struct root.children) ∧
        fields maxDepth (.root (identifier root.name)) root.children = .ok fs ∧ b = .struct fs := by
  rw [body_eq] at h
  obtain ⟨c, hc, hb⟩ := bind_eq_ok_iff.mp h
  cases c with
  | some c =>
    cases hb
    exact Or.inl ⟨c, hc, rfl⟩
  | none =>
    obtain ⟨fs, hfs, hb⟩ := bind_eq_ok_iff.mp hb
    cases hb
    exact Or.inr ⟨fs, shape_of_column?_none hc, hfs, rfl⟩

end ParquetStruct.Struct
