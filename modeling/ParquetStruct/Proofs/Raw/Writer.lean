/-
# ParquetStruct.Proofs.Raw.Writer — the tokens of raw forms.

Writing makes use of plain tokens only, so what is written can be read again token by token.
-/
import ParquetStruct.Proofs.Json.Token
import ParquetStruct.Proofs.Schema.Node
import ParquetStruct.Raw.Writer

namespace ParquetStruct.Raw

open ParquetStruct.Json

theorem ofNode_eq (n : Node) :
    ofNode n = .object (.ofList (field .name (some (ofString n.name)) ++
      (field .physicalType (n.physicalCode.map fun c => ofInt c.toInt) ++
      (field .typeLength (n.typeLength.map fun l => ofInt l.toInt) ++
      (field .convertedType (n.convertedType.map fun c => ofString c.name) ++
      (field .logicalType (n.logicalType.map ofLogical) ++
      (field .repetitionType (n.repetitionType.map fun r => ofString r.name) ++
      (field .children (if n.children.isEmpty then none else some (.array (ofNodes n.children))) ++
        [])))))))) := by
  cases n
  simp only [ofNode, List.append_assoc, List.append_nil]

/-! ## Plain values -/

/-- A value that is made of plain tokens. -/
def IsPlainValue (v : Value) : Prop := ∀ t ∈ v.tokens, t.IsPlain

theorem isPlainValue_ofInt (n : Int) : IsPlainValue (ofInt n) :=
  List.forall_mem_singleton.mpr ⟨n, rfl⟩

theorem isPlainValue_ofString (s : String) : IsPlainValue (ofString s) :=
  List.forall_mem_singleton.mpr rfl

theorem isPlainValue_bool (b : Bool) : IsPlainValue (.bool b) :=
  List.forall_mem_singleton.mpr trivial

theorem isPlain_of_mem_membersTokens {ms : List (String × Value)}
    (h : ∀ m ∈ ms, IsPlainValue m.2) (separator : List Token)
    (hseparator : ∀ t ∈ separator, t.IsPlain) :
    ∀ t ∈ (Members.ofList ms).tokens separator, t.IsPlain := by
  induction ms generalizing separator with
  | nil => exact List.forall_mem_singleton.mpr trivial
  | cons m ms ih =>
    rw [List.forall_mem_cons] at h
    simp only [Members.ofList, Members.tokens, List.forall_mem_append, List.forall_mem_cons]
    exact ⟨⟨hseparator, rfl, trivial, h.1⟩,
      ih h.2 [.comma] (List.forall_mem_singleton.mpr trivial)⟩

theorem isPlainValue_object {ms : List (String × Value)} (h : ∀ m ∈ ms, IsPlainValue m.2) :
    IsPlainValue (.object (.ofList ms)) :=
  List.forall_mem_cons.mpr ⟨trivial, isPlain_of_mem_membersTokens h [] nofun⟩

theorem isPlainValue_withParameters (name first second : String) {v w : Value}
    (hv : IsPlainValue v) (hw : IsPlainValue w) :
    IsPlainValue (withParameters name [(first, v), (second, w)]) := by
  refine isPlainValue_object (List.forall_mem_singleton.mpr (isPlainValue_object ?_))
  simp only [List.forall_mem_cons]
  exact ⟨hv, hw, nofun⟩

theorem isPlainValue_ofLogical (l : LogicalType) : IsPlainValue (ofLogical l) := by
  cases l with
  | decimal scale precision =>
    exact isPlainValue_withParameters _ _ _ (isPlainValue_ofInt _) (isPlainValue_ofInt _)
  | time utc unit | timestamp utc unit =>
    exact isPlainValue_withParameters _ _ _ (isPlainValue_bool utc) (isPlainValue_ofString _)
  | integer bitWidth signed =>
    exact isPlainValue_withParameters _ _ _ (isPlainValue_ofInt _) (isPlainValue_bool signed)
  | _ => exact isPlainValue_ofString _

theorem isPlain_of_mem_itemsTokens {cs : List Node} (h : ∀ c ∈ cs, IsPlainValue (ofNode c))
    (separator : List Token) (hseparator : ∀ t ∈ separator, t.IsPlain) :
    ∀ t ∈ (ofNodes cs).tokens separator, t.IsPlain := by
  induction cs generalizing separator with
  | nil => exact List.forall_mem_singleton.mpr trivial
  | cons c cs ih =>
    rw [List.forall_mem_cons] at h
    simp only [ofNodes, Items.tokens, List.forall_mem_append]
    exact ⟨⟨hseparator, h.1⟩, ih h.2 [.comma] (List.forall_mem_singleton.mpr trivial)⟩

/-! ## Nodes -/

theorem forall_mem_field {key : Key} {value : Option Value}
    (h : ∀ v, value = some v → IsPlainValue v) : ∀ m ∈ field key value, IsPlainValue m.2 := by
  intro m hm
  obtain ⟨v, hv, rfl⟩ := Option.map_eq_some_iff.mp (Option.mem_toList.mp hm)
  exact h v hv

theorem forall_mem_field_map {α : Type} {key : Key} {write : α → Value}
    (h : ∀ a, IsPlainValue (write a)) (value : Option α) :
    ∀ m ∈ field key (value.map write), IsPlainValue m.2 := by
  refine forall_mem_field fun v hv => ?_
  obtain ⟨a, -, rfl⟩ := Option.map_eq_some_iff.mp hv
  exact h a

/-- The raw form of a tree is made of plain tokens. -/
theorem isPlainValue_ofNode (n : Node) : IsPlainValue (ofNode n) := by
  induction n using Node.induction with
  | step n ih =>
    rw [ofNode_eq]
    refine isPlainValue_object ?_
    simp only [List.forall_mem_append]
    refine ⟨?_, ?_, ?_, ?_, ?_, ?_, ?_, nofun⟩
    · exact forall_mem_field_map isPlainValue_ofString (some n.name)
    · exact forall_mem_field_map (fun _ => isPlainValue_ofInt _) n.physicalCode
    · exact forall_mem_field_map (fun _ => isPlainValue_ofInt _) n.typeLength
    · exact forall_mem_field_map (fun _ => isPlainValue_ofString _) n.convertedType
    · exact forall_mem_field_map isPlainValue_ofLogical n.logicalType
    · exact forall_mem_field_map (fun _ => isPlainValue_ofString _) n.repetitionType
    · refine forall_mem_field fun v hv => ?_
      split at hv
      · cases hv
      · cases hv
        exact List.forall_mem_cons.mpr ⟨trivial, isPlain_of_mem_itemsTokens ih [] nofun⟩

end ParquetStruct.Raw
