/-
# ParquetStruct.Proofs.Struct.Collision — which names share an identifier.

A plain name holds nothing but ASCII letters, digits and underscores.  It is spelled as it is, so an
identifier differs from it at the start only: a letter is made upper case, and before a digit or an
underscore comes the lead, which is a plain name itself.  Two plain names therefore share an
identifier if they differ in the case of the letter they start with, or if one of them is the other
behind the lead.  A struct has a field for each child of its node, named by the identifier of the
child, and no field is renamed for the sake of another; so two fields of a struct have one name
exactly if two of the children collide.
-/
import ParquetStruct.Proofs.Struct.Identifier
import ParquetStruct.Proofs.Struct.Walk
import Mathlib.Data.List.Forall2

namespace ParquetStruct.Struct

/-! ## Names that collide -/

/-- Only ASCII letters, digits and underscores. -/
def IsPlainName (name : String) : Prop := ∀ c ∈ name.toList, isIdentifierChar c = true

instance (name : String) : Decidable (IsPlainName name) :=
  decidable_of_iff (name.toList.all isIdentifierChar = true) List.all_eq_true

/-- Whether a name starts with a character of a class. -/
def startsWith (p : Char → Bool) (name : String) : Bool := name.toList.head?.any p

/-- Whether a character is a digit or an underscore. -/
def isDigitOrUnderscore (c : Char) : Bool := c.isDigit || c == '_'

/-- Both names start with a letter, and they differ at most in its case. -/
structure DifferInCase (a b : String) : Prop where
  letterLeft : startsWith Char.isAlpha a = true
  letterRight : startsWith Char.isAlpha b = true
  first : a.toList.head?.map Char.toLower = b.toList.head?.map Char.toLower
  rest : a.toList.tail = b.toList.tail

/-- The first name starts with a digit or an underscore, and the second is the first behind the lead
of identifiers, or behind this lead with a small letter in front. -/
structure IsLed (a b : String) : Prop where
  first : startsWith isDigitOrUnderscore a = true
  led : b = "PARGO_PREFIX_" ++ a ∨ b = "pARGO_PREFIX_" ++ a

/-- The ways in which two plain names can come to have one identifier. -/
def Collide (a b : String) : Prop := a = b ∨ DifferInCase a b ∨ IsLed a b ∨ IsLed b a

instance (a b : String) : Decidable (DifferInCase a b) :=
  decidable_of_iff (startsWith Char.isAlpha a = true ∧ startsWith Char.isAlpha b = true ∧
      a.toList.head?.map Char.toLower = b.toList.head?.map Char.toLower ∧
        a.toList.tail = b.toList.tail)
    ⟨fun ⟨hl, hr, hfirst, hrest⟩ => ⟨hl, hr, hfirst, hrest⟩,
      fun ⟨hl, hr, hfirst, hrest⟩ => ⟨hl, hr, hfirst, hrest⟩⟩

instance (a b : String) : Decidable (IsLed a b) :=
  decidable_of_iff (startsWith isDigitOrUnderscore a = true ∧
      (b = "PARGO_PREFIX_" ++ a ∨ b = "pARGO_PREFIX_" ++ a))
    ⟨fun ⟨hfirst, hled⟩ => ⟨hfirst, hled⟩, fun ⟨hfirst, hled⟩ => ⟨hfirst, hled⟩⟩

instance (a b : String) : Decidable (Collide a b) :=
  inferInstanceAs (Decidable (a = b ∨ DifferInCase a b ∨ IsLed a b ∨ IsLed b a))

/-! ## The start of a name -/

theorem startsWith_iff {p : Char → Bool} {name : String} :
    startsWith p name = true ↔ ∃ c cs, name.toList = c :: cs ∧ p c = true := by
  unfold startsWith
  cases name.toList with
  | nil => simp
  | cons c cs => simp

/-- A character of a plain name is a letter, or else a digit or an underscore. -/
theorem isAlpha_eq_false_iff {c : Char} (h : isIdentifierChar c = true) :
    c.isAlpha = false ↔ isDigitOrUnderscore c = true :=
  forall_ascii (P := fun c => isIdentifierChar c = true →
    (c.isAlpha = false ↔ isDigitOrUnderscore c = true)) (by decide)
    (toNat_lt_of_isIdentifierChar h) h

theorem isIdentifierChar_of_isAlpha {c : Char} (h : c.isAlpha = true) :
    isIdentifierChar c = true :=
  isIdentifierChar_iff.mpr (Or.inl (Or.inl ((Bool.or_eq_true _ _).mp h)))

theorem toNat_lt_of_isAlpha {c : Char} (h : c.isAlpha = true) : c.toNat < 128 :=
  toNat_lt_of_isIdentifierChar (isIdentifierChar_of_isAlpha h)

theorem toLower_toUpper {c : Char} (h : c.isAlpha = true) : c.toUpper.toLower = c.toLower :=
  forall_ascii (P := fun c => c.isAlpha = true → c.toUpper.toLower = c.toLower) (by decide)
    (toNat_lt_of_isAlpha h) h

theorem toUpper_toLower {c : Char} (h : c.isAlpha = true) : c.toLower.toUpper = c.toUpper :=
  forall_ascii (P := fun c => c.isAlpha = true → c.toLower.toUpper = c.toUpper) (by decide)
    (toNat_lt_of_isAlpha h) h

theorem toUpper_eq_P {c : Char} (h : c.isAlpha = true) (hc : c.toUpper = 'P') :
    c = 'P' ∨ c = 'p' :=
  forall_ascii (P := fun c => c.isAlpha = true → c.toUpper = 'P' → c = 'P' ∨ c = 'p') (by decide)
    (toNat_lt_of_isAlpha h) h hc

/-- Letters are the same in upper case if they are the same in lower case. -/
theorem toUpper_eq_iff {c d : Char} (hc : c.isAlpha = true) (hd : d.isAlpha = true) :
    c.toUpper = d.toUpper ↔ c.toLower = d.toLower := by
  constructor
  · intro h
    rw [← toLower_toUpper hc, h, toLower_toUpper hd]
  · intro h
    rw [← toUpper_toLower hc, h, toUpper_toLower hd]

theorem capitalize_of_isAlpha {c : Char} (h : c.isAlpha = true) (cs : List Char) :
    capitalize (c :: cs) = c.toUpper :: cs := by
  have hself : c.isLower = false → c.toUpper = c :=
    forall_ascii (P := fun c => c.isLower = false → c.toUpper = c) (by decide)
      (toNat_lt_of_isAlpha h)
  have hupper : c.isLower = false → c.isUpper = true := by
    intro hlower
    have h : (c.isUpper || c.isLower) = true := h
    rwa [hlower, Bool.or_false] at h
  rw [capitalize_cons]
  split
  · rfl
  · rename_i hlower
    have hlower := Bool.eq_false_iff.mpr hlower
    rw [if_pos (hupper hlower), hself hlower]

theorem capitalize_of_not_isAlpha {c : Char} (h : c.isAlpha = false) (cs : List Char) :
    capitalize (c :: cs) = lead.toList ++ c :: cs := by
  obtain ⟨hupper, hlower⟩ : c.isUpper = false ∧ c.isLower = false := Bool.or_eq_false_iff.mp h
  rw [capitalize_cons, hupper, hlower, if_neg Bool.false_ne_true, if_neg Bool.false_ne_true]

/-! ## Names with one identifier -/

section

variable {a b : String}

/-- A plain name is spelled as it is. -/
theorem IsPlainName.toList_identifier (h : IsPlainName a) :
    (identifier a).toList = capitalize a.toList := by
  rw [Struct.toList_identifier, flatMap_spellChar_eq_self h]

theorem IsPlainName.identifier_eq_iff (ha : IsPlainName a) (hb : IsPlainName b) :
    identifier a = identifier b ↔ capitalize a.toList = capitalize b.toList := by
  rw [← String.toList_inj, ha.toList_identifier, hb.toList_identifier]

/-- A name behind the lead, with a capital or a small letter in front. -/
theorem IsLed.exists_toList (h : IsLed a b) :
    ∃ c, c.isAlpha = true ∧ c.toUpper = 'P' ∧
      b.toList = c :: ("ARGO_PREFIX_".toList ++ a.toList) := by
  rcases h.led with rfl | rfl
  · exact ⟨'P', rfl, rfl, by simp⟩
  · exact ⟨'p', rfl, rfl, by simp⟩

theorem lead_toList : lead.toList = 'P' :: "ARGO_PREFIX_".toList := by simp [lead]

theorem IsLed.capitalize_eq (ha : IsPlainName a) (h : IsLed a b) :
    capitalize a.toList = capitalize b.toList := by
  obtain ⟨c, cs, hcs, hc⟩ := startsWith_iff.mp h.first
  obtain ⟨p, hp, hupper, hb⟩ := h.exists_toList
  have hplain : isIdentifierChar c = true := ha c (hcs ▸ List.mem_cons_self)
  rw [hb, capitalize_of_isAlpha hp, hupper, hcs,
    capitalize_of_not_isAlpha ((isAlpha_eq_false_iff hplain).mpr hc), lead_toList]
  rfl

theorem DifferInCase.capitalize_eq (h : DifferInCase a b) :
    capitalize a.toList = capitalize b.toList := by
  obtain ⟨c, cs, hcs, hc⟩ := startsWith_iff.mp h.letterLeft
  obtain ⟨d, ds, hds, hd⟩ := startsWith_iff.mp h.letterRight
  have hfirst := h.first
  have hrest := h.rest
  rw [hcs, hds] at hfirst hrest
  rw [hcs, hds, capitalize_of_isAlpha hc, capitalize_of_isAlpha hd,
    (toUpper_eq_iff hc hd).mpr (Option.some.inj hfirst), show cs = ds from hrest]

/-- If capitalizing makes a name that starts with a letter equal to one that does not, the first is
the second behind the lead. -/
theorem isLed_of_capitalize_eq {c d : Char} {cs ds : List Char} (hb : IsPlainName b)
    (hcs : a.toList = c :: cs) (hds : b.toList = d :: ds) (hc : c.isAlpha = true)
    (hd : d.isAlpha = false) (h : capitalize a.toList = capitalize b.toList) : IsLed b a := by
  have hplain : isIdentifierChar d = true := hb d (hds ▸ List.mem_cons_self)
  rw [hcs, hds, capitalize_of_isAlpha hc, capitalize_of_not_isAlpha hd, lead_toList,
    List.cons_append, List.cons.injEq, ← hds] at h
  refine ⟨startsWith_iff.mpr ⟨d, ds, hds, (isAlpha_eq_false_iff hplain).mp hd⟩, ?_⟩
  simp only [← String.toList_inj, String.toList_append, hcs, h.2]
  rcases toUpper_eq_P hc h.1 with rfl | rfl
  · exact Or.inl (by simp)
  · exact Or.inr (by simp)

theorem differInCase_of_capitalize_eq {c d : Char} {cs ds : List Char} (hcs : a.toList = c :: cs)
    (hds : b.toList = d :: ds) (hc : c.isAlpha = true) (hd : d.isAlpha = true)
    (h : capitalize a.toList = capitalize b.toList) : DifferInCase a b := by
  rw [hcs, hds, capitalize_of_isAlpha hc, capitalize_of_isAlpha hd, List.cons.injEq] at h
  refine ⟨startsWith_iff.mpr ⟨c, cs, hcs, hc⟩, startsWith_iff.mpr ⟨d, ds, hds, hd⟩, ?_, ?_⟩
  · rw [hcs, hds]
    exact congrArg some ((toUpper_eq_iff hc hd).mp h.1)
  · rw [hcs, hds]
    exact h.2

theorem collide_of_identifier_eq (ha : IsPlainName a) (hb : IsPlainName b)
    (h : identifier a = identifier b) : Collide a b := by
  have hempty : a = "" ↔ b = "" := by rw [← identifier_eq_empty_iff, h, identifier_eq_empty_iff]
  by_cases hb0 : b = ""
  · exact Or.inl ((hempty.mpr hb0).trans hb0.symm)
  · have ha0 : a ≠ "" := mt hempty.mp hb0
    obtain ⟨c, cs, hcs⟩ := List.exists_cons_of_ne_nil (mt String.toList_eq_nil_iff.mp ha0)
    obtain ⟨d, ds, hds⟩ := List.exists_cons_of_ne_nil (mt String.toList_eq_nil_iff.mp hb0)
    rw [ha.identifier_eq_iff hb] at h
    -- What an identifier starts with tells a letter made upper case from the lead.
    cases hc : c.isAlpha with
    | true =>
      cases hd : d.isAlpha with
      | true => exact Or.inr (Or.inl (differInCase_of_capitalize_eq hcs hds hc hd h))
      | false => exact Or.inr (Or.inr (Or.inr (isLed_of_capitalize_eq hb hcs hds hc hd h)))
    | false =>
      cases hd : d.isAlpha with
      | true => exact Or.inr (Or.inr (Or.inl (isLed_of_capitalize_eq ha hds hcs hd hc h.symm)))
      | false =>
        rw [hcs, hds, capitalize_of_not_isAlpha hc, capitalize_of_not_isAlpha hd,
          List.append_cancel_left_eq, ← hcs, ← hds, String.toList_inj] at h
        exact Or.inl h

/-- Plain names share an identifier exactly if they collide. -/
theorem identifier_eq_iff_collide (ha : IsPlainName a) (hb : IsPlainName b) :
    identifier a = identifier b ↔ Collide a b := by
  constructor
  · exact collide_of_identifier_eq ha hb
  · rw [ha.identifier_eq_iff hb]
    rintro (rfl | hcase | hled | hled)
    · rfl
    · exact hcase.capitalize_eq
    · exact hled.capitalize_eq ha
    · exact (hled.capitalize_eq hb).symm

end

/-! ## Structs of a declaration -/

/-- The name of a field. -/
def Field.name : Field → String
  | .column name .. => name
  | .group name .. => name

mutual

/-- The structs in the type of a field, each as its fields, and each before those inside it. -/
def Field.structs : Field → List (List Field)
  | .column .. => []
  | .group _ _ fields _ => fields :: Field.listStructs fields

/-- The structs in the types of fields one after the other. -/
def Field.listStructs : List Field → List (List Field)
  | [] => []
  | f :: fs => f.structs ++ Field.listStructs fs

end

/-- The structs of a declared type, each before those inside it. -/
def Body.structs : Body → List (List Field)
  | .column _ => []
  | .struct fields => fields :: Field.listStructs fields

/-- Whether a node, at its path, is a struct. -/
def isStructNode (x : FieldPath × Node) : Bool :=
  match x.2.shape x.1 with
  | .ok (.struct _) => true
  | _ => false

/-- The field nodes of a tree that are structs. -/
def structNodes (root : Node) : List (FieldPath × Node) := (treeNodes root).filter isStructNode

/-- The fields of a struct are those of the children of a node, by name and in order. -/
def AreNamedAfter (x : FieldPath × Node) (fs : List Field) : Prop :=
  fs.map Field.name = x.2.children.map fun c => identifier c.name

variable {n : Node} {path : FieldPath} {maxDepth : Nat}

theorem filter_fieldNodes_of_struct (h : n.shape path = .ok (.struct n.children)) :
    (fieldNodes path n).filter isStructNode =
      (path, n) :: (fieldNodesBelow path n.children).filter isStructNode := by
  have hn : isStructNode (path, n) = true := by rw [isStructNode, h]
  rw [fieldNodes_of_struct h, List.filter_cons_of_pos hn]

theorem filter_fieldNodes_of_column? {c : Column} (h : column? n path = .ok (some c)) :
    (fieldNodes path n).filter isStructNode = [] := by
  have hshape := not_struct_of_column? h
  have hn : isStructNode (path, n) = false := by
    unfold isStructNode
    split
    · rename_i cs hs
      rw [(Node.shape_eq_struct_iff.mp hs).1] at hs
      exact absurd hs hshape
    · rfl
  rw [fieldNodes_of_not_struct hshape, List.filter_cons_of_neg (by simp [hn]), List.filter_nil]

theorem name_of_field {f : Field} (h : field maxDepth path n = .ok f) :
    f.name = identifier n.name := by
  obtain ⟨-, ⟨c, -, rfl⟩ | ⟨fs, -, -, rfl⟩⟩ := field_eq_ok h
  · rfl
  · rfl

theorem map_name_of_fields {cs : List Node} {fs : List Field}
    (h : fields maxDepth path cs = .ok fs) :
    fs.map Field.name = cs.map fun c => identifier c.name := by
  induction cs generalizing fs with
  | nil =>
    cases h
    rfl
  | cons c cs ih =>
    obtain ⟨f, gs, hf, hgs, rfl⟩ := fields_cons_eq_ok h
    rw [List.map_cons, List.map_cons, name_of_field hf, ih hgs]

theorem forall₂_structs_of_fields {cs : List Node}
    (ih : ∀ c ∈ cs, ∀ path f, field maxDepth path c = .ok f →
      List.Forall₂ AreNamedAfter ((fieldNodes path c).filter isStructNode) f.structs)
    {fs : List Field} (h : fields maxDepth path cs = .ok fs) :
    List.Forall₂ AreNamedAfter ((fieldNodesBelow path cs).filter isStructNode)
      (Field.listStructs fs) := by
  induction cs generalizing fs with
  | nil =>
    cases h
    exact .nil
  | cons c cs ihcs =>
    obtain ⟨f, gs, hf, hgs, rfl⟩ := fields_cons_eq_ok h
    rw [fieldNodesBelow_cons, List.filter_append, Field.listStructs]
    exact List.rel_append (ih c List.mem_cons_self _ f hf)
      (ihcs (fun e he => ih e (List.mem_cons_of_mem c he)) hgs)

/-- The structs of a field are made of the struct nodes from its node downwards. -/
theorem forall₂_structs_of_field (n : Node) : ∀ path f, field maxDepth path n = .ok f →
    List.Forall₂ AreNamedAfter ((fieldNodes path n).filter isStructNode) f.structs := by
  induction n using Node.induction with
  | step n ih =>
    intro path f h
    obtain ⟨-, ⟨c, hc, rfl⟩ | ⟨fs, hs, hfs, rfl⟩⟩ := field_eq_ok h
    · rw [filter_fieldNodes_of_column? hc]
      exact .nil
    · rw [filter_fieldNodes_of_struct hs]
      exact .cons (map_name_of_fields hfs) (forall₂_structs_of_fields ih hfs)

/-- The structs of a declared type are made of the struct nodes of the tree, in the same order, and
have the children of these for fields. -/
theorem forall₂_structs_of_body {root : Node} {b : Body} (h : body maxDepth root = .ok b) :
    List.Forall₂ AreNamedAfter (structNodes root) b.structs := by
  unfold structNodes treeNodes
  rcases body_eq_ok h with ⟨c, hc, rfl⟩ | ⟨fs, hs, hfs, rfl⟩
  · rw [filter_fieldNodes_of_column? hc]
    exact .nil
  · rw [filter_fieldNodes_of_struct hs]
    exact .cons (map_name_of_fields hfs)
      (forall₂_structs_of_fields (fun c _ => forall₂_structs_of_field c) hfs)

/-- Fields that are named after plain children have different names exactly if no two of the
children collide. -/
theorem AreNamedAfter.nodup_iff {x : FieldPath × Node} {fs : List Field} (h : AreNamedAfter x fs)
    (hplain : ∀ c ∈ x.2.children, IsPlainName c.name) :
    (fs.map Field.name).Nodup ↔ x.2.children.Pairwise fun c c' => ¬Collide c.name c'.name := by
  rw [h, List.Nodup, List.pairwise_map]
  apply List.Pairwise.iff_of_mem
  intro c c' hc hc'
  exact not_congr (identifier_eq_iff_collide (hplain c hc) (hplain c' hc'))

/-- Plain names share an identifier exactly if they collide.  A declared type has a struct for each
struct node of its tree, with a field for each child, named by the identifier of the child; so if
the names of the children are plain, the struct has no name twice exactly if no two of them
collide. -/
theorem identifier_eq_and_nodup_iff_collide :
    (∀ a b, IsPlainName a → IsPlainName b → (identifier a = identifier b ↔ Collide a b)) ∧
      ∀ maxDepth root b, body maxDepth root = .ok b →
        List.Forall₂ (fun x fs => AreNamedAfter x fs ∧
            ((∀ c ∈ x.2.children, IsPlainName c.name) →
              ((fs.map Field.name).Nodup ↔
                x.2.children.Pairwise fun c c' => ¬Collide c.name c'.name)))
          (structNodes root) b.structs := by
  constructor
  · intro a b ha hb
    exact identifier_eq_iff_collide ha hb
  · intro maxDepth root b h
    apply (forall₂_structs_of_body h).imp
    intro x fs hx
    exact ⟨hx, hx.nodup_iff⟩

/-- A struct with two columns that collide. -/
def twofoldPart : Node :=
  { name := "part", children := [
    { name := "_id", physicalCode := some 2 },
    { name := "pARGO_PREFIX__id", physicalCode := some 2 }] }

/-- A schema of fields that do not collide, the second of which is the struct above. -/
def twofoldSchema : Node :=
  { name := "row", children := [{ name := "1st", physicalCode := some 1 }, twofoldPart] }

theorem identifier_eq_and_nodup_twofoldSchema :
    identifier "_id" = identifier "pARGO_PREFIX__id" ∧
      ∃ b fs gs, body 2 twofoldSchema = .ok b ∧ b.structs = [fs, gs] ∧
        (fs.map Field.name).Nodup ∧ ¬(gs.map Field.name).Nodup := by
  obtain ⟨hnames, hstructs⟩ := identifier_eq_and_nodup_iff_collide
  have hbody : ∃ b fs gs, body 2 twofoldSchema = .ok b ∧ b.structs = [fs, gs] :=
    ⟨_, _, _, rfl, rfl⟩
  obtain ⟨b, fs, gs, hb, hfields⟩ := hbody
  have hnodes : ∃ path path', structNodes twofoldSchema =
      [(path, twofoldSchema), (path', twofoldPart)] := ⟨_, _, rfl⟩
  obtain ⟨path, path', hnodes⟩ := hnodes
  have hforall := hstructs 2 twofoldSchema b hb
  rw [hnodes, hfields, List.forall₂_cons, List.forall₂_cons] at hforall
  obtain ⟨⟨-, hrow⟩, ⟨-, hpart⟩, -⟩ := hforall
  have hplain : ∀ n ∈ [twofoldSchema, twofoldPart], ∀ c ∈ n.children, IsPlainName c.name := by
    decide
  have hapart : twofoldSchema.children.Pairwise fun c c' => ¬Collide c.name c'.name := by decide
  have hcollide : ¬twofoldPart.children.Pairwise fun c c' => ¬Collide c.name c'.name := by decide
  refine ⟨(hnames _ _ (by decide) (by decide)).mpr (by decide), b, fs, gs, hb, hfields, ?_, ?_⟩
  · exact (hrow (hplain _ (by simp))).mpr hapart
  · exact mt (hpart (hplain _ (by simp))).mp hcollide

end ParquetStruct.Struct
