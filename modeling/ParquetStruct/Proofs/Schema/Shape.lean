/-
# ParquetStruct.Proofs.Schema.Shape — which nodes have which shape.

Scalars and structs are the nodes without a container annotation: scalars have a known physical
code, structs have no code but children.  What shape a node has does not depend on the path it is
looked at under; the path only shows in errors.
-/
import ParquetStruct.Proofs.Outcome
import ParquetStruct.Schema.Shape

namespace ParquetStruct

/-! ## Physical codes -/

theorem PhysicalType.exists_ofCode? {c : Int32} (h0 : 0 ≤ c.toInt) (h7 : c.toInt ≤ 7) :
    ∃ t, PhysicalType.ofCode? c = some t := by
  rw [← Int32.ofInt_toInt c]
  have hc : c.toInt = 0 ∨ c.toInt = 1 ∨ c.toInt = 2 ∨ c.toInt = 3 ∨ c.toInt = 4 ∨ c.toInt = 5 ∨
      c.toInt = 6 ∨ c.toInt = 7 := by omega
  rcases hc with hc | hc | hc | hc | hc | hc | hc | hc <;> rw [hc] <;> exact ⟨_, rfl⟩

theorem PhysicalType.code_mem_range (p : PhysicalType) : 0 ≤ p.code.toInt ∧ p.code.toInt ≤ 7 := by
  cases p <;> decide

/-- The codes that name no physical type are those outside zero to seven. -/
theorem PhysicalType.ofCode?_eq_none_iff {c : Int32} :
    PhysicalType.ofCode? c = none ↔ c.toInt < 0 ∨ 7 < c.toInt := by
  constructor
  · intro h
    apply Decidable.byContradiction
    intro hin
    obtain ⟨t, ht⟩ : ∃ t, PhysicalType.ofCode? c = some t :=
      PhysicalType.exists_ofCode? (by omega) (by omega)
    exact absurd (ht.symm.trans h) (Option.some_ne_none t)
  · intro h
    cases ht : PhysicalType.ofCode? c with
    | none => rfl
    | some t =>
      rw [← PhysicalType.code_eq_of_ofCode? ht] at h
      cases t <;> exact absurd h (by decide)

namespace Node

variable {n : Node} {p q : FieldPath}

theorem physicalType?_eq_some_iff {t : PhysicalType} :
    n.physicalType? p = .ok (some t) ↔ n.physicalCode = some t.code := by
  unfold physicalType?
  cases hcode : n.physicalCode with
  | none => by_cases hc : n.children.isEmpty <;> simp [hc]
  | some code =>
    cases ht : PhysicalType.ofCode? code with
    | none =>
      have hne : code ≠ t.code := by
        rintro rfl
        rw [PhysicalType.ofCode?_code] at ht
        cases ht
      simp [ht, hne]
    | some u =>
      -- Codes name at most one type each, so equal codes are codes of equal types.
      have hu : u.code = t.code ↔ u = t :=
        ⟨fun h => by simpa using congrArg PhysicalType.ofCode? h, congrArg PhysicalType.code⟩
      simp [← PhysicalType.code_eq_of_ofCode? ht, hu]

theorem physicalType?_eq_none_iff :
    n.physicalType? p = .ok none ↔ n.physicalCode = none ∧ n.children ≠ [] := by
  unfold physicalType?
  cases n.physicalCode with
  | none => by_cases hc : n.children = [] <;> simp [hc]
  | some code => cases ht : PhysicalType.ofCode? code <;> simp [ht]

/-! ## Shapes -/

theorem shape_of_list (h : n.isListAnnotated = true) :
    n.shape p = n.physicalType? p >>= fun _ => n.listShape p := by
  simp [shape, h]

theorem shape_of_map (hl : n.isListAnnotated = false) (h : n.isMapAnnotated = true) :
    n.shape p = n.physicalType? p >>= fun _ => n.mapShape p := by
  simp [shape, hl, h]

theorem shape_of_plain (hl : n.isListAnnotated = false) (hm : n.isMapAnnotated = false) :
    n.shape p = n.physicalType? p >>= fun t => .ok (t.elim (.struct n.children) .scalar) := by
  simp only [shape, hl, hm]
  congr 1
  funext t
  cases t <;> rfl

/-- What a LIST annotation yields is a list. -/
theorem kind_of_listShape {s : Shape} (h : n.listShape p = .ok s) : s.kind = .list := by
  unfold listShape at h
  split at h
  · split at h
    · split at h
      · cases h
        split
        · rfl
        · rfl
      · cases h
        rfl
    · cases h
  · cases h

/-- What a MAP annotation yields is a map. -/
theorem kind_of_mapShape {s : Shape} (h : n.mapShape p = .ok s) : s.kind = .map := by
  unfold mapShape at h
  split at h
  · split at h
    · split at h
      · cases h
        rfl
      · cases h
    · cases h
  · cases h

/-- What is neither a list nor a map carries no container annotation. -/
theorem unannotated_of_shape {s : Shape} (h : n.shape p = .ok s) (hlist : s.kind ≠ .list)
    (hmap : s.kind ≠ .map) : n.isListAnnotated = false ∧ n.isMapAnnotated = false := by
  cases hl : n.isListAnnotated with
  | true =>
    rw [shape_of_list hl, bind_eq_ok_iff] at h
    obtain ⟨_, -, hs⟩ := h
    exact absurd (kind_of_listShape hs) hlist
  | false =>
    cases hm : n.isMapAnnotated with
    | true =>
      rw [shape_of_map hl hm, bind_eq_ok_iff] at h
      obtain ⟨_, -, hs⟩ := h
      exact absurd (kind_of_mapShape hs) hmap
    | false => exact ⟨rfl, rfl⟩

/-- The scalars are the nodes with a known physical code and no container annotation. -/
theorem shape_eq_scalar_iff {t : PhysicalType} :
    n.shape p = .ok (.scalar t) ↔
      n.physicalCode = some t.code ∧ n.isListAnnotated = false ∧ n.isMapAnnotated = false := by
  rw [← physicalType?_eq_some_iff]
  constructor
  · intro h
    obtain ⟨hl, hm⟩ := unannotated_of_shape h nofun nofun
    rw [shape_of_plain hl hm, bind_eq_ok_iff] at h
    obtain ⟨t', ht, hs⟩ := h
    cases t' with
    | none => cases hs
    | some u =>
      cases hs
      exact ⟨ht, hl, hm⟩
  · rintro ⟨ht, hl, hm⟩
    rw [shape_of_plain hl hm, ht]
    rfl

/-- The structs are the nodes with children but without a physical code or a container
annotation. -/
theorem shape_eq_struct_iff {cs : List Node} :
    n.shape p = .ok (.struct cs) ↔
      cs = n.children ∧ (n.physicalCode = none ∧ n.children ≠ []) ∧ n.isListAnnotated = false ∧
        n.isMapAnnotated = false := by
  rw [← physicalType?_eq_none_iff]
  constructor
  · intro h
    obtain ⟨hl, hm⟩ := unannotated_of_shape h nofun nofun
    rw [shape_of_plain hl hm, bind_eq_ok_iff] at h
    obtain ⟨t, ht, hs⟩ := h
    cases t with
    | none =>
      cases hs
      exact ⟨rfl, ht, hl, hm⟩
    | some u => cases hs
  · rintro ⟨rfl, ht, hl, hm⟩
    rw [shape_of_plain hl hm, ht]
    rfl

/-! ## The members of containers -/

theorem shape_eq_ok {s : Shape} (h : n.shape p = .ok s) :
    n.listShape p = .ok s ∨ n.mapShape p = .ok s ∨
      ∃ t : Option PhysicalType, s = t.elim (.struct n.children) .scalar := by
  cases hl : n.isListAnnotated with
  | true =>
    rw [shape_of_list hl, bind_eq_ok_iff] at h
    obtain ⟨_, -, hs⟩ := h
    exact Or.inl hs
  | false =>
    cases hm : n.isMapAnnotated with
    | true =>
      rw [shape_of_map hl hm, bind_eq_ok_iff] at h
      obtain ⟨_, -, hs⟩ := h
      exact Or.inr (Or.inl hs)
    | false =>
      rw [shape_of_plain hl hm, bind_eq_ok_iff] at h
      obtain ⟨t, -, hs⟩ := h
      cases hs
      exact Or.inr (Or.inr ⟨t, rfl⟩)

/-- A list was found in the layout that a LIST annotation asks for. -/
theorem listShape_of_shape {s : Shape} (h : n.shape p = .ok s) (hs : s.kind = .list) :
    n.listShape p = .ok s := by
  rcases shape_eq_ok h with hlist | hmap | ⟨t, rfl⟩
  · exact hlist
  · rw [kind_of_mapShape hmap] at hs
    cases hs
  · cases t <;> cases hs

/-- The element of a list with two levels is the only child of the node, that of any other list the
only child of that. -/
theorem children_of_listShape {element : Node} {twoLevel : Bool}
    (h : n.listShape p = .ok (.list element twoLevel)) :
    ∃ repeated, n.children = [repeated] ∧
      if twoLevel then repeated = element else repeated.children = [element] := by
  unfold listShape at h
  split at h
  · rename_i repeated hchildren
    refine ⟨repeated, hchildren, ?_⟩
    split at h
    · split at h
      · rename_i element' helement
        split at h
        · cases h
          exact rfl
        · cases h
          exact helement
      · cases h
        exact rfl
    · cases h
  · cases h

/-- The element of a list is the only child of the node, or the only child of that. -/
theorem children_of_list {element : Node} {twoLevel : Bool}
    (h : n.shape p = .ok (.list element twoLevel)) :
    ∃ repeated, n.children = [repeated] ∧ (repeated = element ∨ repeated.children = [element]) := by
  obtain ⟨repeated, hchildren, hmember⟩ := children_of_listShape (listShape_of_shape h rfl)
  refine ⟨repeated, hchildren, ?_⟩
  cases twoLevel with
  | true => exact Or.inl hmember
  | false => exact Or.inr hmember

/-- The key and the value of a map are the children of the only child of the node. -/
theorem children_of_map {key value : Node} (h : n.shape p = .ok (.map key value)) :
    ∃ entries, n.children = [entries] ∧ entries.children = [key, value] := by
  rcases shape_eq_ok h with hlist | hmap | ⟨t, ht⟩
  · exact absurd (kind_of_listShape hlist) nofun
  · unfold mapShape at hmap
    split at hmap
    · rename_i entries hchildren
      split at hmap
      · split at hmap
        · rename_i hmembers
          cases hmap
          exact ⟨entries, hchildren, hmembers⟩
        · cases hmap
      · cases hmap
    · cases hmap
  · cases t with
    | none => cases ht
    | some t => cases ht

/-! ## Paths make no difference to shapes -/

theorem physicalType?_congr {t : Option PhysicalType} (h : n.physicalType? p = .ok t) :
    n.physicalType? q = .ok t := by
  cases t with
  | none => exact physicalType?_eq_none_iff.mpr (physicalType?_eq_none_iff.mp h)
  | some t => exact physicalType?_eq_some_iff.mpr (physicalType?_eq_some_iff.mp h)

theorem listShape_congr {s : Shape} (h : n.listShape p = .ok s) : n.listShape q = .ok s := by
  unfold listShape at h ⊢
  split at h
  · split at h
    · rename_i hr
      rw [← h, if_pos hr]
    · cases h
  · cases h

theorem mapShape_congr {s : Shape} (h : n.mapShape p = .ok s) : n.mapShape q = .ok s := by
  unfold mapShape at h ⊢
  split at h
  · split at h
    · rename_i hr
      split at h
      · rw [← h, if_pos hr]
      · cases h
    · cases h
  · cases h

/-- A node has the same shape under every path. -/
theorem shape_congr {s : Shape} (h : n.shape p = .ok s) (q : FieldPath) : n.shape q = .ok s := by
  cases hl : n.isListAnnotated with
  | true =>
    rw [shape_of_list hl, bind_eq_ok_iff] at h ⊢
    obtain ⟨t, ht, hs⟩ := h
    exact ⟨t, physicalType?_congr ht, listShape_congr hs⟩
  | false =>
    cases hm : n.isMapAnnotated with
    | true =>
      rw [shape_of_map hl hm, bind_eq_ok_iff] at h ⊢
      obtain ⟨t, ht, hs⟩ := h
      exact ⟨t, physicalType?_congr ht, mapShape_congr hs⟩
    | false =>
      rw [shape_of_plain hl hm, bind_eq_ok_iff] at h ⊢
      obtain ⟨t, ht, hs⟩ := h
      exact ⟨t, physicalType?_congr ht, hs⟩

end Node

end ParquetStruct
