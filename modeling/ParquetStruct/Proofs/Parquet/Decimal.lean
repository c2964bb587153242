/-
# ParquetStruct.Proofs.Parquet.Decimal — two ways to annotate a decimal make one tree.

Older writers annotate a decimal by its converted type alone, and leave its scale and precision to
the primitive; newer ones add a logical type with parameters of its own.  Where the two agree, the
logical type is redundant: without it, or with one in its place that has no counterpart, the tree
falls back on the decimal of the converted type, and so has the same logical type as before.  As
this is so of each primitive by itself, it is so of any number of them at once.
-/
import ParquetStruct.Format
import ParquetStruct.Proofs.Parquet.Description
import Mathlib.Data.List.Forall2

namespace ParquetStruct.Parquet

variable {s t : SchemaType} {info : Info} {storage : Storage} {fields fields' : List SchemaType}
  {logical : Option Logical}

/-! ## Redundant annotations -/

/-- A primitive that is a decimal by its converted type and by its logical type, with the same
parameters in both. -/
structure IsTwiceDecimal (info : Info) (storage : Storage) : Prop where
  converted : info.convertedType = some .decimal
  logical : info.logical = some (.known (.decimal storage.scale storage.precision))

/-- The same schema, but that any of the primitives which are decimals twice over have lost their
logical type, or have one in its place that schema trees do not know. -/
inductive DropsDecimals : SchemaType → SchemaType → Prop
  | same (t : SchemaType) : DropsDecimals t t
  | decimal {info : Info} {storage : Storage} {logical : Option Logical}
      (h : IsTwiceDecimal info storage) (hlogical : ∀ l, logical ≠ some (.known l)) :
      DropsDecimals (.primitive info storage) (.primitive { info with logical } storage)
  | group {info : Info} {fields fields' : List SchemaType}
      (h : List.Forall₂ DropsDecimals fields fields') :
      DropsDecimals (.group info fields) (.group info fields')

/-- Without its logical type, a decimal is found to be the same decimal by its converted type. -/
theorem IsTwiceDecimal.tree_eq (h : IsTwiceDecimal info storage)
    (hlogical : ∀ l, logical ≠ some (.known l)) :
    (SchemaType.primitive { info with logical } storage).tree =
      (SchemaType.primitive info storage).tree := by
  have hold : (info.logical.bind Logical.toLogicalType?).or
      (SchemaType.legacyDecimal? info storage) =
        some (.decimal storage.scale storage.precision) := by
    rw [h.logical]
    rfl
  have hnew : (logical.bind Logical.toLogicalType?).or
      (SchemaType.legacyDecimal? { info with logical } storage) =
        some (.decimal storage.scale storage.precision) := by
    rw [bind_toLogicalType?_eq_none_iff.mpr hlogical, Option.none_or]
    exact legacyDecimal?_eq_some_iff.mpr ⟨h.converted, rfl⟩
  rw [SchemaType.tree, SchemaType.tree, hold, hnew]

/-! ## Trees -/

theorem trees_eq_of_dropsDecimals (ih : ∀ f ∈ fields, ∀ f', DropsDecimals f f' → f'.tree = f.tree)
    (h : List.Forall₂ DropsDecimals fields fields') :
    SchemaType.trees fields' = SchemaType.trees fields := by
  induction h with
  | nil => rfl
  | cons hf _ ihfs =>
    rw [List.forall_mem_cons] at ih
    rw [SchemaType.trees, SchemaType.trees, ih.1 _ hf, ihfs ih.2]

theorem tree_eq_of_dropsDecimals (t : SchemaType) : ∀ s, DropsDecimals t s → s.tree = t.tree := by
  induction t using SchemaType.induction with
  | primitive info storage =>
    intro s h
    cases h with
    | same => rfl
    | decimal h hlogical => exact h.tree_eq hlogical
  | group info fields ih =>
    intro s h
    cases h with
    | same => rfl
    | group h => rw [SchemaType.tree, SchemaType.tree, trees_eq_of_dropsDecimals ih h]

/-- However many redundant decimals lose their logical type, the tree of the schema is the same, and
so is what it is printed as in every form and under every limit, text or error. -/
theorem tree_and_render_of_dropsDecimals (h : DropsDecimals t s) :
    s.tree = t.tree ∧ ∀ (format : Format) pretty maxDepth,
      format.render pretty maxDepth s.tree = format.render pretty maxDepth t.tree := by
  have htree := tree_eq_of_dropsDecimals t s h
  refine ⟨htree, fun format pretty maxDepth => ?_⟩
  rw [htree]

/-- An amount with two places out of thirty-eight, with the given logical annotation. -/
def amount (name : String) (logical : Option Logical) : SchemaType :=
  .primitive
    { name, repetition := some .required, convertedType := some .decimal, logical }
    { physical := .fixedLenByteArray, typeLength := 16, scale := 2, precision := 38 }

/-- Orders with three amounts, of which two are given with their logical annotations. -/
def orders (total price : Option Logical) : SchemaType :=
  .group { name := "orders" } [
    amount "total" total,
    .group { name := "lines", repetition := some .repeated } [
      amount "price" price, amount "tax" (some (.known (.decimal 2 38)))]]

/-- Orders whose amounts are all decimals by their logical types, too. -/
def modernOrders : SchemaType :=
  orders (some (.known (.decimal 2 38))) (some (.known (.decimal 2 38)))

theorem tree_and_render_modernOrders :
    DropsDecimals modernOrders (orders none (some .variant)) ∧
      (orders none (some .variant)).tree = modernOrders.tree ∧
      Format.render .go true 1 (orders none (some .variant)).tree =
        Format.render .go true 1 modernOrders.tree := by
  have hdrops : DropsDecimals modernOrders (orders none (some .variant)) :=
    .group (.cons (.decimal ⟨rfl, rfl⟩ (by simp))
      (.cons (.group (.cons (.decimal ⟨rfl, rfl⟩ (by simp)) (.cons (.same _) .nil))) .nil))
  obtain ⟨htree, hrender⟩ := tree_and_render_of_dropsDecimals hdrops
  exact ⟨hdrops, htree, hrender .go true 1⟩

end ParquetStruct.Parquet
