/-
# ParquetStruct.Proofs.Parquet.Tree — the nodes that a Parquet schema is turned into.

Following child indices in the tree of a schema leads to the tree of what field indices lead to in
the schema itself.  So every node stands for a primitive, with a known physical code and no
children, or for a group, without a code and with the trees of its fields as children.  Of the
errors about types this leaves one, for groups without fields.
-/
import ParquetStruct.Parquet.Type
import ParquetStruct.Proofs.Struct.TypeFault

namespace ParquetStruct.Parquet

open Struct

/-! ## Types in a schema -/

/-- What holds of primitives, and is inherited by a group from its fields, holds of every type. -/
@[elab_as_elim]
theorem SchemaType.induction {P : SchemaType → Prop}
    (primitive : ∀ info storage, P (.primitive info storage))
    (group : ∀ info fields, (∀ f ∈ fields, P f) → P (.group info fields)) (t : SchemaType) : P t :=
  @SchemaType.rec P (fun fs => ∀ f ∈ fs, P f) primitive group (by simp)
    (fun _ _ hf hfs => List.forall_mem_cons.mpr ⟨hf, hfs⟩) t

/-- The type reached by following field indices. -/
def SchemaType.descendant (t : SchemaType) : List Nat → Option SchemaType
  | [] => some t
  | i :: is => t.fields[i]?.bind fun f => f.descendant is

@[simp] theorem SchemaType.descendant_nil (t : SchemaType) : t.descendant [] = some t := rfl

@[simp] theorem SchemaType.descendant_cons (t : SchemaType) (i : Nat) (is : List Nat) :
    t.descendant (i :: is) = t.fields[i]?.bind fun f => f.descendant is := rfl

/-- The same indices lead to a type in a schema and to its tree in the tree of the schema. -/
theorem descendant_tree (t : SchemaType) (is : List Nat) :
    t.tree.descendant is = (t.descendant is).map SchemaType.tree := by
  induction is generalizing t with
  | nil => rfl
  | cons i is ih =>
    rw [Node.descendant_cons, SchemaType.descendant_cons, SchemaType.children_tree,
      List.getElem?_map]
    cases t.fields[i]? with
    | none => rfl
    | some f => exact ih f

/-! ## The nodes of the tree -/

/-- A node that stands for a Parquet type: a leaf with a physical code from zero to seven, or a
group with exactly the trees of the fields. -/
inductive StandsFor : SchemaType → Node → Prop
  | primitive {info : Info} {storage : Storage} {n : Node} {code : Int32}
      (hcode : n.physicalCode = some code) (hlow : 0 ≤ code.toInt) (hhigh : code.toInt ≤ 7)
      (hchildren : n.children = []) : StandsFor (.primitive info storage) n
  | group {info : Info} {fields : List SchemaType} {n : Node} (hcode : n.physicalCode = none)
      (hchildren : n.children = fields.map SchemaType.tree) : StandsFor (.group info fields) n

theorem standsFor_tree (t : SchemaType) : StandsFor t t.tree := by
  cases t with
  | primitive info storage =>
    obtain ⟨hlow, hhigh⟩ := storage.physical.code_mem_range
    exact .primitive rfl hlow hhigh rfl
  | group info fields => exact .group rfl (SchemaType.children_tree (.group info fields))

/-- The only type that is missing is that of a group without fields. -/
theorem typeFault?_of_standsFor {t : SchemaType} {n : Node} {path : FieldPath} {e : SchemaError}
    (h : StandsFor t n) (he : typeFault? n path = some e) :
    e = .typeNotSet path ∧ ∃ info, t = .group info [] := by
  unfold typeFault? at he
  cases h with
  | primitive hcode hlow hhigh _ =>
    rw [hcode] at he
    dsimp only at he
    rw [if_neg (by omega)] at he
    cases he
  | @group info fields _ hcode hchildren =>
    rw [hcode] at he
    dsimp only at he
    split at he
    · rename_i hnil
      cases he
      rw [hchildren, List.map_eq_nil_iff] at hnil
      exact ⟨rfl, info, by rw [hnil]⟩
    · cases he

/-! ## Rendering -/

/-- If rendering the tree of a schema ends in an error about a type, the schema has a group without
fields, and the error is that its type is not set. -/
theorem exists_group_of_body {t : SchemaType} {maxDepth : Nat} {e : SchemaError}
    (h : body maxDepth t.tree = .error e) (he : isAboutType e = true) :
    ∃ path is info, e = .typeNotSet path ∧ t.descendant is = some (.group info []) ∧
      path.segments.getLast? = some (identifier info.name) := by
  obtain ⟨path, n, ⟨⟨is, his⟩, hlast⟩, hfault⟩ := exists_typeFault?_of_body h he
  rw [descendant_tree, Option.map_eq_some_iff] at his
  obtain ⟨s, hs, rfl⟩ := his
  obtain ⟨rfl, info, rfl⟩ := typeFault?_of_standsFor (standsFor_tree s) hfault
  rw [SchemaType.name_tree] at hlast
  exact ⟨path, is, info, rfl, hs, hlast⟩

/-- Every node of the tree of a schema stands for the type that the same indices lead to in the
schema.  Rendering the tree never meets an unknown physical type, and a type that is not set only at
a group without fields, under a path that ends in the identifier of that group. -/
theorem standsFor_and_body_tree (t : SchemaType) (maxDepth : Nat) :
    (∀ is n, t.tree.descendant is = some n → ∃ s, t.descendant is = some s ∧ StandsFor s n) ∧
      (∀ code path, body maxDepth t.tree ≠ .error (.unknownPhysicalType code path)) ∧
      ∀ path, body maxDepth t.tree = .error (.typeNotSet path) →
        ∃ is info, t.descendant is = some (.group info []) ∧
          path.segments.getLast? = some (identifier info.name) := by
  refine ⟨fun is n hn => ?_, fun code path h => ?_, fun path h => ?_⟩
  · rw [descendant_tree, Option.map_eq_some_iff] at hn
    obtain ⟨s, hs, rfl⟩ := hn
    exact ⟨s, hs, standsFor_tree s⟩
  · obtain ⟨_, _, _, he, -⟩ := exists_group_of_body h rfl
    cases he
  · obtain ⟨_, is, info, he, hs, hlast⟩ := exists_group_of_body h rfl
    cases he
    exact ⟨is, info, hs, hlast⟩

/-- A schema with a list whose element is a group without fields. -/
def hollowList : SchemaType :=
  .group { name := "schema" } [
    .group { name := "tags", repetition := some .optional, convertedType := some .list } [
      .group { name := "list", repetition := some .repeated } [
        .group { name := "empty element", repetition := some .required } []]]]

theorem standsFor_and_body_hollowList :
    body 64 hollowList.tree =
        .error (.typeNotSet ⟨["Schema", "Tags", "Empty32element"]⟩) ∧
      ∃ is info, hollowList.descendant is = some (.group info []) ∧
        ["Schema", "Tags", "Empty32element"].getLast? = some (identifier info.name) := by
  have h : body 64 hollowList.tree =
      .error (.typeNotSet ⟨["Schema", "Tags", "Empty32element"]⟩) := rfl
  exact ⟨h, (standsFor_and_body_tree hollowList 64).2.2 _ h⟩

end ParquetStruct.Parquet
