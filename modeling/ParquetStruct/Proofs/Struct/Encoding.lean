/-
# ParquetStruct.Proofs.Struct.Encoding — containers that are encoded in another way.

Writers of schemas do not agree on how a container is annotated, nor on whether the element of a
list stands inside a repeated group or is repeated itself.  `Reencodes` is one such difference at
one node, and `Recoded` any number of them, at any nodes that the walk from the root comes to.  A
node in another encoding is rendered alike, as a root and as a field at any depth under any limit;
a struct whose children are rendered alike is so too, and so is the whole tree.
-/
import ParquetStruct.Proofs.Struct.Fault
import Mathlib.Data.List.Forall2
import Mathlib.Logic.Relation

namespace ParquetStruct.Struct

variable {n n' : Node} {path : FieldPath}

/-! ## Other encodings -/

/-- The node with other annotations. -/
def withAnnotations (n : Node) (converted : Option ConvertedType)
    (logical : Option LogicalType) : Node :=
  { n with convertedType := converted, logicalType := logical }

/-- A two-level list whose element has a physical code, and a repeated group that holds this element
as a required child, under a name that does not mark the group as the element. -/
structure IsWrapping (n element wrapper : Node) (required : Option Repetition) : Prop where
  isList : container? n = some .list
  children : n.children = [element]
  repeatedElement : element.isRepeated = true
  code : element.physicalCode ≠ none
  repeatedWrapper : wrapper.isRepeated = true
  group : wrapper.physicalCode = none
  members : wrapper.children = [element.withRepetition required]
  requiredElement : (element.withRepetition required).repetition = .required
  notArray : wrapper.name ≠ "array"
  notTuple : wrapper.name ≠ n.name ++ "_tuple"

/-- One way to encode a container differently. -/
inductive Reencodes : Node → Node → Prop
  /-- The container is annotated in another way as what it is, a list or else a map. -/
  | relabel {n : Node} {container : Container} {converted : Option ConvertedType}
      {logical : Option LogicalType} (hn : container? n = some container)
      (hn' : container? (withAnnotations n converted logical) = some container) :
      Reencodes n (withAnnotations n converted logical)
  /-- The element of a two-level list becomes the child of a group. -/
  | threeLevel {n element wrapper : Node} {required : Option Repetition}
      (h : IsWrapping n element wrapper required) : Reencodes n (n.withChildren [wrapper])

/-- The same tree with any of its field nodes in another encoding: a node may be encoded
differently itself, also more than once, and a struct may have children in another encoding. -/
inductive Recoded : Node → Node → Prop
  | node {n n' : Node} (h : Relation.ReflTransGen Reencodes n n') : Recoded n n'
  | struct {n : Node} {p : FieldPath} {cs : List Node}
      (hn : n.shape p = .ok (.struct n.children)) (h : List.Forall₂ Recoded n.children cs) :
      Recoded n (n.withChildren cs)

/-! ## Nodes that are rendered alike -/

/-- Two nodes of one name that make the same field wherever they stand, and the same body as
roots. -/
structure RendersAlike (n n' : Node) : Prop where
  name : n'.name = n.name
  field : ∀ d path, field d path n' = field d path n
  body : ∀ d, body d n' = body d n

theorem RendersAlike.refl (n : Node) : RendersAlike n n :=
  ⟨rfl, fun _ _ => rfl, fun _ => rfl⟩

theorem RendersAlike.trans {m : Node} (h : RendersAlike n m) (h' : RendersAlike m n') :
    RendersAlike n n' where
  name := h'.name.trans h.name
  field := fun d path => (h'.field d path).trans (h.field d path)
  body := fun d => (h'.body d).trans (h.body d)

/-- A container is neither a scalar nor a struct. -/
theorem kind_of_container {s : Shape} (hn : container? n ≠ none) (h : n.shape path = .ok s) :
    s.kind = .list ∨ s.kind = .map := by
  cases s with
  | scalar t => exact absurd (container?_eq_none_iff.mpr (Node.shape_eq_scalar_iff.mp h).2) hn
  | struct cs => exact absurd (container?_eq_none_iff.mpr (Node.shape_eq_struct_iff.mp h).2.2) hn
  | list element twoLevel => exact Or.inl rfl
  | map key value => exact Or.inr rfl

theorem column?_ne_none_of_container (hn : container? n ≠ none) : column? n path ≠ .ok none :=
  fun h => not_struct_of_container hn (shape_of_column?_none h)

/-- Containers that make the same columns are rendered alike, if they have name and repetition in
common. -/
theorem rendersAlike_of_column? (hn : container? n ≠ none) (hname : n'.name = n.name)
    (hrepetition : n'.repetition = n.repetition)
    (hcolumn : ∀ path, column? n' path = column? n path) : RendersAlike n n' := by
  refine ⟨hname, ?_, ?_⟩
  · intro d path
    rw [field_eq, field_eq, hcolumn]
    split
    · rfl
    · cases hc : column? n path with
      | error e => rfl
      | ok c =>
        cases c with
        | some c => simp only [ok_bind, columnField, fieldTag, hname, hrepetition]
        | none => exact absurd hc (column?_ne_none_of_container hn)
  · intro d
    rw [body_eq, body_eq, hname, hcolumn]
    cases hc : column? n (.root (identifier n.name)) with
    | error e => rfl
    | ok c =>
      cases c with
      | some c => rfl
      | none => exact absurd hc (column?_ne_none_of_container hn)

/-- Children that are rendered alike make the same fields. -/
theorem fields_eq_of_rendersAlike {cs cs' : List Node} (h : List.Forall₂ RendersAlike cs cs')
    (d : Nat) (path : FieldPath) : fields d path cs' = fields d path cs := by
  induction h with
  | nil => rfl
  | cons hc _ ih => rw [fields_cons, fields_cons, hc.name, hc.field, ih]

/-- A struct whose children are rendered alike is so too. -/
theorem rendersAlike_of_struct {cs : List Node} (hn : n.shape path = .ok (.struct n.children))
    (h : List.Forall₂ RendersAlike n.children cs) : RendersAlike n (n.withChildren cs) := by
  obtain ⟨-, ⟨hcode, hne⟩, hl, hm⟩ := Node.shape_eq_struct_iff.mp hn
  have hcs : cs ≠ [] := by
    rintro rfl
    exact hne (List.forall₂_nil_right_iff.mp h)
  have hcolumn : ∀ p, column? n p = .ok none := by
    intro p
    exact column?_of_struct (Node.shape_congr hn p)
  have hcolumn' : ∀ p, column? (n.withChildren cs) p = .ok none := by
    intro p
    apply column?_of_struct
    exact Node.shape_eq_struct_iff.mpr ⟨rfl, ⟨hcode, hcs⟩, hl, hm⟩
  have hname : (n.withChildren cs).name = n.name := rfl
  have hchildren : (n.withChildren cs).children = cs := rfl
  refine ⟨hname, ?_, ?_⟩
  · intro d p
    rw [field_eq, field_eq, hcolumn, hcolumn', hchildren]
    simp only [ok_bind, fields_eq_of_rendersAlike h]
    rfl
  · intro d
    rw [body_eq, body_eq, hname, hcolumn, hcolumn', hchildren]
    simp only [ok_bind, fields_eq_of_rendersAlike h]

/-! ## One container in another encoding -/

/-- The column of a container depends on the node only through its shape. -/
theorem column?_eq_of_shape_eq (hn : container? n ≠ none) (h : n'.shape path = n.shape path) :
    column? n' path = column? n path := by
  cases hs : n.shape path with
  | error e => rw [column?_of_error hs, column?_of_error (h.trans hs)]
  | ok s =>
    cases s with
    | scalar t => rcases kind_of_container hn hs with hk | hk <;> cases hk
    | struct cs => rcases kind_of_container hn hs with hk | hk <;> cases hk
    | list element twoLevel => rw [column?_of_list hs, column?_of_list (h.trans hs)]
    | map key value => rw [column?_of_map hs, column?_of_map (h.trans hs)]

/-- How a list or a map is annotated as such makes no difference to it. -/
theorem rendersAlike_withAnnotations {container : Container} {converted : Option ConvertedType}
    {logical : Option LogicalType} (hn : container? n = some container)
    (hn' : container? (withAnnotations n converted logical) = some container) :
    RendersAlike n (withAnnotations n converted logical) := by
  have hsome : container? n ≠ none := by
    rw [hn]
    exact Option.some_ne_none container
  refine rendersAlike_of_column? hsome rfl rfl ?_
  intro p
  apply column?_eq_of_shape_eq hsome
  rw [shape_of_container hn, shape_of_container hn']
  rfl

/-- Whether a node has a type is settled by its code, and by whether it has children. -/
theorem physicalType?_withChildren {cs : List Node} (hchildren : n.children ≠ []) (hcs : cs ≠ []) :
    (n.withChildren cs).physicalType? path = n.physicalType? path := by
  unfold Node.physicalType? Node.withChildren
  simp [hchildren, hcs]

section Wrapping

variable {element wrapper : Node} {required : Option Repetition}

theorem IsWrapping.listShape_twoLevel (h : IsWrapping n element wrapper required) :
    n.listShape path = .ok (.list element true) := by
  have hlegacy : Node.isLegacyElement n element = true := by
    simp [Node.isLegacyElement, Option.isSome_iff_ne_none.mpr h.code]
  unfold Node.listShape
  rw [h.children]
  dsimp only
  rw [if_pos h.repeatedElement]
  split
  · rw [hlegacy, if_pos rfl]
  · rfl

theorem IsWrapping.listShape_threeLevel (h : IsWrapping n element wrapper required) :
    (n.withChildren [wrapper]).listShape path =
      .ok (.list (element.withRepetition required) false) := by
  have hlegacy : Node.isLegacyElement (n.withChildren [wrapper]) wrapper = false := by
    simp [Node.isLegacyElement, Node.withChildren, h.group, h.notArray, h.notTuple]
  show (if wrapper.isRepeated then _ else _) = _
  rw [if_pos h.repeatedWrapper, h.members]
  dsimp only
  rw [hlegacy, if_neg Bool.false_ne_true]

/-- A required element makes the same list as the repeated one did. -/
theorem IsWrapping.listColumn_eq (h : IsWrapping n element wrapper required) :
    listColumn path (element.withRepetition required) false = listColumn path element true := by
  have hlist : ∀ t, listOf (element.withRepetition required) false t = listOf element true t := by
    intro t
    unfold listOf
    rw [h.requiredElement]
    rfl
  rw [Struct.listColumn_eq, Struct.listColumn_eq]
  simp only [hlist]
  rfl

/-- A list in the two-level form is rendered as the same list in the three-level form. -/
theorem IsWrapping.rendersAlike (h : IsWrapping n element wrapper required) :
    RendersAlike n (n.withChildren [wrapper]) := by
  have hlist : container? (n.withChildren [wrapper]) = some .list := h.isList
  have hsome : container? n ≠ none := by
    rw [h.isList]
    exact Option.some_ne_none Container.list
  refine rendersAlike_of_column? hsome rfl rfl ?_
  intro p
  have htype : (n.withChildren [wrapper]).physicalType? p = n.physicalType? p := by
    apply physicalType?_withChildren
    · simp [h.children]
    · simp
  rw [column?_eq, column?_eq, shape_of_container h.isList, shape_of_container hlist, htype]
  dsimp only
  rw [h.listShape_twoLevel, h.listShape_threeLevel]
  -- A fault of the type comes first in both forms.
  cases n.physicalType? p with
  | error e => rfl
  | ok t =>
    simp only [ok_bind]
    rw [h.listColumn_eq]

end Wrapping

theorem rendersAlike_of_reencodes (h : Reencodes n n') : RendersAlike n n' := by
  cases h with
  | relabel hn hn' => exact rendersAlike_withAnnotations hn hn'
  | threeLevel h => exact h.rendersAlike

/-! ## Trees -/

theorem rendersAlike_of_recoded (n : Node) : ∀ n', Recoded n n' → RendersAlike n n' := by
  induction n using Node.induction with
  | step n ih =>
    intro n' h
    cases h with
    | node h =>
      induction h with
      | refl => exact .refl n
      | tail _ hstep hsteps => exact hsteps.trans (rendersAlike_of_reencodes hstep)
    | struct hn hcs =>
      -- The children are rendered alike one by one.
      apply rendersAlike_of_struct hn
      rw [List.forall₂_iff_get] at hcs ⊢
      refine ⟨hcs.1, ?_⟩
      intro i hi hi'
      exact ih _ (List.get_mem _ _) _ (hcs.2 i hi hi')

/-- Whatever containers of a tree are encoded in another way, the tree is rendered as before, to the
same text or with the same error. -/
theorem body_eq_of_recoded {root root' : Node} (h : Recoded root root') (maxDepth : Nat) :
    body maxDepth root' = body maxDepth root :=
  (rendersAlike_of_recoded root root' h).body maxDepth

/-- A map in the encoding of the given annotations. -/
def sizesMap (converted : Option ConvertedType) (logical : Option LogicalType) : Node :=
  { name := "sizes", convertedType := converted, logicalType := logical, children := [
    { name := "map", repetitionType := some .repeated, children := [
      { name := "key", physicalCode := some 6 }, { name := "value", physicalCode := some 1 }] }] }

/-- The element of a list, with the given repetition. -/
def idColumn (repetition : Repetition) : Node :=
  { name := "array", physicalCode := some 2, repetitionType := some repetition }

/-- A schema as older writers encode it: a two-level list, and a map in an optional struct. -/
def legacySchema : Node :=
  .root "row" [
    { name := "ids", convertedType := some .list, children := [idColumn .repeated] },
    .group "in" .optional [sizesMap (some .mapKeyValue) none]]

/-- The same schema with logical types and a three-level list. -/
def modernSchema : Node :=
  .root "row" [
    { name := "ids", logicalType := some .list,
      children := [.group "list" .repeated [idColumn .required]] },
    .group "in" .optional [sizesMap none (some .map)]]

theorem body_eq_modernSchema : Recoded legacySchema modernSchema ∧
    (∃ b, body 2 legacySchema = .ok b) ∧ body 2 modernSchema = body 2 legacySchema := by
  have hrelabeled : Reencodes
      { name := "ids", convertedType := some .list, children := [idColumn .repeated] }
      { name := "ids", logicalType := some .list, children := [idColumn .repeated] } :=
    .relabel rfl rfl
  have hwrapping : IsWrapping
      { name := "ids", logicalType := some .list, children := [idColumn .repeated] }
      (idColumn .repeated) (.group "list" .repeated [idColumn .required]) (some .required) :=
    ⟨rfl, rfl, rfl, by decide, rfl, rfl, rfl, rfl, by decide, by decide⟩
  have hsizes : Reencodes (sizesMap (some .mapKeyValue) none) (sizesMap none (some .map)) :=
    .relabel rfl rfl
  have hrecoded : Recoded legacySchema modernSchema := by
    refine .struct (p := {}) rfl (.cons (.node ?_) (.cons ?_ .nil))
    · exact .tail (.single hrelabeled) (.threeLevel hwrapping)
    · exact .struct (p := {}) rfl (.cons (.node (.single hsizes)) .nil)
  exact ⟨hrecoded, ⟨_, rfl⟩, body_eq_of_recoded hrecoded 2⟩

end ParquetStruct.Struct
