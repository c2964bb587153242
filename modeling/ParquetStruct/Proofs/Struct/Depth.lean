/-
# ParquetStruct.Proofs.Struct.Depth — the limit on the depth is an exact threshold.

Under a larger limit the walk takes the same steps, so what is rendered does not depend on the limit.
Among the field nodes of a tree, in order, each but the root comes after the struct that it is a
child of, and lies one level below it.  The first node beyond a limit therefore lies just one level
beyond it, and it is the one that an error about the depth names.
-/
import ParquetStruct.Proofs.Struct.Fault
import ParquetStruct.Proofs.Struct.Subtree

namespace ParquetStruct.Struct

variable {root n : Node} {path : FieldPath} {d d' : Nat}

/-! ## Larger limits -/

theorem fields_of_le {cs : List Node}
    (ih : ∀ c ∈ cs, ∀ path f, field d path c = .ok f → field d' path c = .ok f) (path : FieldPath) :
    ∀ fs, fields d path cs = .ok fs → fields d' path cs = .ok fs := by
  induction cs with
  | nil =>
    intro fs h
    exact h
  | cons c cs ihcs =>
    intro fs h
    obtain ⟨f, gs, hf, hgs, rfl⟩ := fields_cons_eq_ok h
    have hf' := ih c List.mem_cons_self _ f hf
    have hgs' := ihcs (fun e he => ih e (List.mem_cons_of_mem c he)) gs hgs
    rw [fields_cons, hf', hgs']
    rfl

/-- A node that yields a field yields the same one under every larger limit. -/
theorem field_of_le (hle : d ≤ d') (n : Node) :
    ∀ path f, field d path n = .ok f → field d' path n = .ok f := by
  induction n using Node.induction with
  | step n ih =>
    intro path f h
    obtain ⟨hdepth, hf⟩ := field_eq_ok h
    rw [field_eq, if_neg (by omega)]
    rcases hf with ⟨c, hc, rfl⟩ | ⟨fs, hs, hfs, rfl⟩
    · rw [hc]
      rfl
    · rw [column?_of_struct hs, ok_bind]
      dsimp only
      rw [fields_of_le ih path fs hfs]
      rfl

theorem body_of_le (hle : d ≤ d') {b : Body} (h : body d root = .ok b) :
    body d' root = .ok b := by
  rw [body_eq]
  rcases body_eq_ok h with ⟨c, hc, rfl⟩ | ⟨fs, hs, hfs, rfl⟩
  · rw [hc]
    rfl
  · rw [column?_of_struct hs, ok_bind]
    dsimp only
    rw [fields_of_le (fun c _ => field_of_le hle c) _ fs hfs]
    rfl

/-! ## Levels of fields -/

mutual

/-- How many levels of fields a field takes up, its own included. -/
def Field.levels : Field → Nat
  | .column .. => 1
  | .group _ _ fields _ => Field.listLevels fields + 1

/-- How many levels the fields of a struct take up. -/
def Field.listLevels : List Field → Nat
  | [] => 0
  | f :: fs => max f.levels (Field.listLevels fs)

end

/-- How many levels of fields lie below a declared type. -/
def Body.levels : Body → Nat
  | .column _ => 0
  | .struct fields => Field.listLevels fields

theorem listLevels_le {cs : List Node}
    (ih : ∀ c ∈ cs, ∀ path f, path.segments ≠ [] → field d path c = .ok f →
      path.depth + f.levels ≤ d + 1) (hpath : path.segments ≠ []) (hdepth : path.depth ≤ d) :
    ∀ fs, fields d path cs = .ok fs → path.depth + Field.listLevels fs ≤ d := by
  induction cs with
  | nil =>
    intro fs h
    cases h
    exact hdepth
  | cons c cs ihcs =>
    intro fs h
    obtain ⟨f, gs, hf, hgs, rfl⟩ := fields_cons_eq_ok h
    have hlevels := ih c List.mem_cons_self _ f (path.segments_child_ne_nil _) hf
    have hlist := ihcs (fun e he => ih e (List.mem_cons_of_mem c he)) gs hgs
    have hpos : 0 < path.segments.length := List.length_pos_iff.mpr hpath
    rw [FieldPath.depth_child] at hlevels
    rw [Field.listLevels]
    unfold FieldPath.depth at hlist ⊢
    omega

/-- The field of a node at some depth has no levels beyond the limit. -/
theorem levels_le (n : Node) :
    ∀ path f, path.segments ≠ [] → field d path n = .ok f → path.depth + f.levels ≤ d + 1 := by
  induction n using Node.induction with
  | step n ih =>
    intro path f hpath h
    obtain ⟨hdepth, ⟨c, -, rfl⟩ | ⟨fs, -, hfs, rfl⟩⟩ := field_eq_ok h
    · show path.depth + 1 ≤ d + 1
      omega
    · have hlist := listLevels_le ih hpath hdepth fs hfs
      show path.depth + (Field.listLevels fs + 1) ≤ d + 1
      omega

theorem body_levels_le {b : Body} (h : body d root = .ok b) : b.levels ≤ d := by
  rcases body_eq_ok h with ⟨c, -, rfl⟩ | ⟨fs, -, hfs, rfl⟩
  · exact Nat.zero_le d
  · have hroot : (FieldPath.root (identifier root.name)).segments ≠ [] := List.cons_ne_nil _ _
    have hlist := listLevels_le (fun c _ => levels_le c) hroot (Nat.zero_le d) fs hfs
    rwa [FieldPath.depth_root, Nat.zero_add] at hlist

/-! ## Every field node comes after its parent -/

/-- A field node and a child of it, one step further down. -/
def IsParent (y x : FieldPath × Node) : Prop :=
  x.2 ∈ y.2.children ∧ x.1 = y.1.child (identifier x.2.name)

theorem exists_isParent_of_fieldNodesBelow {cs : List Node} (hcs : ∀ c ∈ cs, c ∈ n.children)
    (ih : ∀ c ∈ cs, ∀ path before x after, fieldNodes path c = before ++ x :: after →
      before ≠ [] → ∃ y ∈ before, IsParent y x) (path : FieldPath) :
    ∀ before x after, fieldNodesBelow path cs = before ++ x :: after →
      ∃ y ∈ (path, n) :: before, IsParent y x := by
  induction cs with
  | nil =>
    intro before x after h
    exact absurd h.symm (List.append_ne_nil_of_right_ne_nil before (List.cons_ne_nil x after))
  | cons c cs ihcs =>
    intro before x after h
    rw [List.forall_mem_cons] at hcs
    have ihcs := ihcs hcs.2 fun e he => ih e (List.mem_cons_of_mem c he)
    rw [fieldNodesBelow_cons, List.append_eq_append_iff] at h
    rcases h with ⟨before', rfl, h⟩ | ⟨rest, hc, h⟩
    · -- The node lies below a later sibling of the child.
      obtain ⟨y, hy, hparent⟩ := ihcs before' x after h
      refine ⟨y, ?_, hparent⟩
      rcases List.mem_cons.mp hy with rfl | hy
      · exact List.mem_cons_self
      · exact List.mem_cons_of_mem _ (List.mem_append_right _ hy)
    · rcases List.cons_eq_append_iff.mp h with ⟨rfl, h⟩ | ⟨rest', rfl, -⟩
      · obtain ⟨y, hy, hparent⟩ := ihcs [] x after h.symm
        rw [List.mem_singleton.mp hy] at hparent
        exact ⟨(path, n), List.mem_cons_self, hparent⟩
      · -- The node is the child itself or lies below it.
        by_cases hbefore : before = []
        · rw [hbefore, fieldNodes_eq, List.nil_append] at hc
          cases (List.cons.inj hc).1
          exact ⟨(path, n), List.mem_cons_self, hcs.1, rfl⟩
        · obtain ⟨y, hy, hparent⟩ := ih c List.mem_cons_self _ before x rest' hc hbefore
          exact ⟨y, List.mem_cons_of_mem _ hy, hparent⟩

theorem exists_isParent_of_fieldNodes (n : Node) :
    ∀ path before x after, fieldNodes path n = before ++ x :: after → before ≠ [] →
      ∃ y ∈ before, IsParent y x := by
  induction n using Node.induction with
  | step n ih =>
    intro path before x after h hbefore
    obtain ⟨y, before', rfl⟩ := List.exists_cons_of_ne_nil hbefore
    by_cases hs : n.shape path = .ok (.struct n.children)
    · rw [fieldNodes_of_struct hs, List.cons_append, List.cons.injEq] at h
      obtain ⟨rfl, h⟩ := h
      exact exists_isParent_of_fieldNodesBelow (fun _ hc => hc) ih path before' x after h
    · -- A node that is no struct is the only one.
      rw [fieldNodes_of_not_struct hs, List.cons_append, List.cons.injEq] at h
      exact absurd h.2.symm (List.append_ne_nil_of_right_ne_nil before' (List.cons_ne_nil x after))

/-- A field node of a tree is the root, or comes after its parent. -/
theorem isParent_of_treeNodes {before after : List (FieldPath × Node)} {x : FieldPath × Node}
    (h : treeNodes root = before ++ x :: after) :
    x.1 = .root (identifier root.name) ∨ ∃ y ∈ before, IsParent y x := by
  by_cases hbefore : before = []
  · rw [hbefore, treeNodes, fieldNodes_eq, List.nil_append] at h
    exact Or.inl (congrArg Prod.fst (List.cons.inj h).1).symm
  · exact Or.inr (exists_isParent_of_fieldNodes root _ before x after h hbefore)

theorem segments_ne_nil_of_mem_treeNodes {x : FieldPath × Node} (h : x ∈ treeNodes root) :
    x.1.segments ≠ [] := by
  obtain ⟨before, after, hsplit⟩ := List.append_of_mem h
  rcases isParent_of_treeNodes hsplit with hroot | ⟨y, -, -, hchild⟩
  · rw [hroot]
    exact List.cons_ne_nil _ _
  · rw [hchild]
    exact y.1.segments_child_ne_nil _

/-- After field nodes within a limit comes none that lies more than one level beyond it. -/
theorem depth_le_succ_of_treeNodes {before after : List (FieldPath × Node)} {x : FieldPath × Node}
    (h : treeNodes root = before ++ x :: after) (hbefore : ∀ y ∈ before, y.1.depth ≤ d) :
    x.1.depth ≤ d + 1 := by
  rcases isParent_of_treeNodes h with hroot | ⟨y, hy, -, hchild⟩
  · rw [hroot]
    exact Nat.zero_le _
  · have hsegments : 0 < y.1.segments.length :=
      List.length_pos_iff.mpr (segments_ne_nil_of_mem_treeNodes (h ▸ List.mem_append_left _ hy))
    have hdepth := hbefore y hy
    rw [hchild, FieldPath.depth_child]
    unfold FieldPath.depth at hdepth
    omega

/-! ## Faults about the depth -/

/-- Whether an error is about the depth of a field. -/
def isAboutDepth : SchemaError → Bool
  | .depthExceeded .. => true
  | _ => false

theorem isAboutDepth_of_typeFault? {e : SchemaError} (h : typeFault? n path = some e) :
    isAboutDepth e = false := by
  unfold typeFault? at h
  split at h
  · split at h
    · cases h
      rfl
    · cases h
  · split at h
    · cases h
      rfl
    · cases h

theorem isAboutDepth_of_memberFault? {member : Node} {composite e : SchemaError}
    (h : memberFault? member path composite = some e) (hcomposite : isAboutDepth composite = false) :
    isAboutDepth e = false := by
  rcases typeFault?_or_eq_of_memberFault? h with h | rfl
  · exact isAboutDepth_of_typeFault? h
  · exact hcomposite

theorem isAboutDepth_of_membersFault? {e : SchemaError} (h : membersFault? n path = some e) :
    isAboutDepth e = false := by
  unfold membersFault? at h
  split at h
  · exact isAboutDepth_of_memberFault? h rfl
  · rcases Option.or_eq_some_iff.mp h with h | ⟨-, h⟩
    · exact isAboutDepth_of_memberFault? h rfl
    · exact isAboutDepth_of_memberFault? h rfl
  · cases h

/-- The depth of a node is judged before the node itself, and only there. -/
theorem isAboutDepth_of_column? {e : SchemaError} (h : failure? (column? n path) = some e) :
    isAboutDepth e = false := by
  rw [failure?_column?, Option.or_eq_some_iff, Option.or_eq_some_iff] at h
  rcases h with h | ⟨-, h | ⟨-, h⟩⟩
  · exact isAboutDepth_of_typeFault? h
  · obtain ⟨container, -, h⟩ := Option.bind_eq_some_iff.mp h
    obtain ⟨fault, -, rfl⟩ := Option.map_eq_some_iff.mp h
    rfl
  · exact isAboutDepth_of_membersFault? h

/-- A node is faulty for its depth exactly if it lies beyond the limit. -/
theorem fault?_eq_depthExceeded_iff {m : Nat} {p : FieldPath} :
    fault? d path n = some (.depthExceeded m p) ↔ d < path.depth ∧ m = d ∧ p = path := by
  rw [fault?_eq]
  constructor
  · intro h
    rcases Option.or_eq_some_iff.mp h with h | ⟨-, h⟩
    · unfold depthFault? at h
      split at h
      · rename_i hdepth
        cases h
        exact ⟨hdepth, rfl, rfl⟩
      · cases h
    · exact absurd (isAboutDepth_of_column? h) (by simp [isAboutDepth])
  · rintro ⟨hdepth, rfl, rfl⟩
    rw [depthFault?, if_pos hdepth, Option.some_or]

/-! ## The threshold -/

theorem depth_le_of_fault?_eq_none (h : fault? d path n = none) : path.depth ≤ d := by
  rw [fault?_eq, Option.or_eq_none_iff] at h
  exact depthFault?_eq_none_iff.mp h.1

/-- If rendering stops at the depth of a field, that is the first one a level beyond the limit. -/
theorem first_beyond_of_fault? {before after : List (FieldPath × Node)} {x : FieldPath × Node}
    {m : Nat} {p : FieldPath} (h : treeNodes root = before ++ x :: after)
    (hx : fault? d x.1 x.2 = some (.depthExceeded m p))
    (hbefore : ∀ y ∈ before, fault? d y.1 y.2 = none) :
    m = d ∧ p = x.1 ∧ x.1.depth = d + 1 ∧ ∀ y ∈ before, y.1.depth ≠ d + 1 := by
  obtain ⟨hdepth, hm, hp⟩ := fault?_eq_depthExceeded_iff.mp hx
  have hwithin : ∀ y ∈ before, y.1.depth ≤ d := by
    intro y hy
    exact depth_le_of_fault?_eq_none (hbefore y hy)
  have hsucc : x.1.depth ≤ d + 1 := depth_le_succ_of_treeNodes h hwithin
  refine ⟨hm, hp, by omega, ?_⟩
  intro y hy
  have hle := hwithin y hy
  omega

/-- A schema that some limit lets through has no fault but for its depth. -/
theorem exists_depthExceeded_of_body {b : Body} {e : SchemaError} (h : body d' root = .ok b)
    (he : body d root = .error e) :
    ∃ before x after, treeNodes root = before ++ x :: after ∧ x.1.depth = d + 1 ∧
      (∀ y ∈ before, y.1.depth ≠ d + 1) ∧ e = .depthExceeded d x.1 := by
  obtain ⟨before, x, after, hsplit, hx, hbefore⟩ := exists_fault?_of_body he
  have hnone : fault? d' x.1 x.2 = none :=
    fault?_eq_none_of_body h x (hsplit ▸ List.mem_append_right _ List.mem_cons_self)
  have hdeep : e = .depthExceeded d x.1 := by
    rw [fault?_eq, Option.or_eq_none_iff] at hnone
    rw [fault?_eq, hnone.2, Option.or_none] at hx
    unfold depthFault? at hx
    split at hx
    · exact (Option.some.inj hx).symm
    · cases hx
  subst hdeep
  obtain ⟨-, -, hdepth, hfirst⟩ := first_beyond_of_fault? hsplit hx hbefore
  exact ⟨before, x, after, hsplit, hdepth, hfirst, rfl⟩

/-- What is rendered does not depend on the limit, and holds no field beyond it.  A schema that one
limit lets through and another does not is refused at its first field a level beyond that one; and
whenever a schema is refused for its depth, the field named lies just one level beyond the limit. -/
theorem depth_threshold (root : Node) :
    (∀ d d' b, d ≤ d' → body d root = .ok b → body d' root = .ok b) ∧
      (∀ d d' b, body d' root = .ok b → (∀ b', body d root ≠ .ok b') →
        ∃ before x after, treeNodes root = before ++ x :: after ∧ x.1.depth = d + 1 ∧
          (∀ y ∈ before, y.1.depth ≠ d + 1) ∧ body d root = .error (.depthExceeded d x.1)) ∧
      (∀ d m p, body d root = .error (.depthExceeded m p) → m = d ∧ p.depth = d + 1) ∧
      ∀ d b, body d root = .ok b → b.levels ≤ d ∧ ∀ x ∈ treeNodes root, x.1.depth ≤ d := by
  refine ⟨?_, ?_, ?_, ?_⟩
  · intro d d' b hle h
    exact body_of_le hle h
  · intro d d' b h hfail
    cases he : body d root with
    | ok b' => exact absurd he (hfail b')
    | error e =>
      obtain ⟨before, x, after, hsplit, hdepth, hfirst, rfl⟩ := exists_depthExceeded_of_body h he
      exact ⟨before, x, after, hsplit, hdepth, hfirst, rfl⟩
  · intro d m p h
    obtain ⟨before, x, after, hsplit, hx, hbefore⟩ := exists_fault?_of_body h
    obtain ⟨hm, rfl, hdepth, -⟩ := first_beyond_of_fault? hsplit hx hbefore
    exact ⟨hm, hdepth⟩
  · intro d b h
    refine ⟨body_levels_le h, ?_⟩
    intro x hx
    exact depth_le_of_fault?_eq_none (fault?_eq_none_of_body h x hx)

theorem depth_threshold_nestedRow :
    (∃ b, body 2 nestedRow = .ok b ∧ body 7 nestedRow = .ok b ∧ b.levels ≤ 2) ∧
      ∃ before x after, treeNodes nestedRow = before ++ x :: after ∧ x.1.depth = 2 ∧
        (∀ y ∈ before, y.1.depth ≠ 2) ∧ body 1 nestedRow = .error (.depthExceeded 1 x.1) := by
  obtain ⟨hlarger, hfirst, -, hwithin⟩ := depth_threshold nestedRow
  obtain ⟨b, hb⟩ : ∃ b, body 2 nestedRow = .ok b := ⟨_, rfl⟩
  have hfail : ∀ b', body 1 nestedRow ≠ .ok b' := nofun
  exact ⟨⟨b, hb, hlarger 2 7 b (by decide) hb, (hwithin 2 b hb).1⟩, hfirst 1 2 b hb hfail⟩

end ParquetStruct.Struct
