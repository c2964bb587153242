/-
# ParquetStruct.Proofs.Struct.Identifier — what identifiers are made of.

Whatever a name holds, its identifier holds ASCII letters, digits and underscores only, and it is
empty only for the empty name.  Every other identifier is exported: it starts with an upper-case
letter.  Nothing in an exported identifier is spelled or capitalized anew, so these and the empty
one are the names that are their own identifiers.  All identifier characters are ASCII, so a fact
about every one of them is a fact about a hundred and twenty-eight code points.
-/
import ParquetStruct.Struct.Identifier

namespace ParquetStruct.Struct

/-! ## Identifier characters -/

/-- What holds of each of the first 128 code points holds of each ASCII character. -/
theorem forall_ascii {P : Char → Prop} (h : ∀ n < 128, P (Char.ofNat n)) {c : Char}
    (hc : c.toNat < 128) : P c := by
  rw [← Char.ofNat_toNat c]
  exact h c.toNat hc

theorem isIdentifierChar_iff {c : Char} : isIdentifierChar c = true ↔
    ((c.isUpper = true ∨ c.isLower = true) ∨ c.isDigit = true) ∨ c = '_' := by
  show (((c.isUpper || c.isLower) || c.isDigit) || c == '_') = true ↔ _
  simp only [Bool.or_eq_true, beq_iff_eq]

theorem isIdentifierChar_of_isLower {c : Char} (h : c.isLower = true) :
    isIdentifierChar c = true :=
  isIdentifierChar_iff.mpr (Or.inl (Or.inl (Or.inr h)))

theorem isIdentifierChar_of_isDigit {c : Char} (h : c.isDigit = true) :
    isIdentifierChar c = true :=
  isIdentifierChar_iff.mpr (Or.inl (Or.inr h))

theorem toNat_lt_of_isIdentifierChar {c : Char} (h : isIdentifierChar c = true) :
    c.toNat < 128 := by
  -- Each of the three ranges has its greatest character below 128, and so is the underscore.
  have hle : ∀ d : Char, d.toNat < 128 → c.val ≤ d.val → c.toNat < 128 := by
    intro d hd hcd
    exact Nat.lt_of_le_of_lt (UInt32.le_iff_toNat_le.mp hcd) hd
  rcases isIdentifierChar_iff.mp h with ((hupper | hlower) | hdigit) | rfl
  · exact hle 'Z' (by decide) (of_decide_eq_true hupper).2
  · exact hle 'z' (by decide) (of_decide_eq_true (Bool.and_eq_true_iff.mp hlower).2)
  · exact hle '9' (by decide) (of_decide_eq_true (Bool.and_eq_true_iff.mp hdigit).2)
  · decide

theorem isIdentifierChar_toUpper {c : Char} (h : c.isLower = true) :
    isIdentifierChar c.toUpper = true :=
  forall_ascii (P := fun c => c.isLower = true → isIdentifierChar c.toUpper = true)
    (by decide) (toNat_lt_of_isIdentifierChar (isIdentifierChar_of_isLower h)) h

/-! ## Spelling a name -/

theorem isIdentifierChar_of_mem_spellChar {c d : Char} (h : d ∈ spellChar c) :
    isIdentifierChar d = true := by
  unfold spellChar at h
  split at h
  · rename_i hc
    rwa [List.mem_singleton.mp h]
  · obtain ⟨b, -, hd⟩ := List.mem_flatMap.mp h
    have hdigit : d.isDigit = true := Nat.isDigit_of_mem_toDigits (by decide) (by decide) hd
    exact isIdentifierChar_of_isDigit hdigit

theorem spellChar_ne_nil (c : Char) : spellChar c ≠ [] := by
  unfold spellChar
  split
  · exact List.cons_ne_nil c []
  · have hbytes : String.utf8EncodeChar c ≠ [] := by
      intro h
      have hlen := String.length_utf8EncodeChar c
      rw [h] at hlen
      exact absurd hlen (Nat.ne_of_lt c.utf8Size_pos)
    obtain ⟨b, bs, hb⟩ := List.exists_cons_of_ne_nil hbytes
    rw [hb, List.flatMap_cons]
    exact List.append_ne_nil_of_left_ne_nil Nat.toDigits_ne_nil _

theorem capitalize_cons (c : Char) (cs : List Char) :
    capitalize (c :: cs) =
      if c.isLower then c.toUpper :: cs
      else if c.isUpper then c :: cs
      else lead.toList ++ c :: cs := rfl

theorem isIdentifierChar_of_mem_capitalize {cs : List Char}
    (h : ∀ c ∈ cs, isIdentifierChar c = true) : ∀ c ∈ capitalize cs, isIdentifierChar c = true := by
  cases cs with
  | nil => exact h
  | cons c cs =>
    rw [capitalize_cons]
    split
    · rename_i hlower
      rw [List.forall_mem_cons] at h ⊢
      exact ⟨isIdentifierChar_toUpper hlower, h.2⟩
    · split
      · exact h
      · rw [List.forall_mem_append]
        exact ⟨by simp [lead, isIdentifierChar], h⟩

theorem capitalize_ne_nil {cs : List Char} (h : cs ≠ []) : capitalize cs ≠ [] := by
  cases cs with
  | nil => exact h
  | cons c cs =>
    rw [capitalize_cons]
    split
    · exact List.cons_ne_nil _ _
    · split
      · exact List.cons_ne_nil _ _
      · exact List.append_ne_nil_of_right_ne_nil _ (List.cons_ne_nil _ _)

/-! ## Identifiers -/

theorem toList_identifier (name : String) :
    (identifier name).toList = capitalize (name.toList.flatMap spellChar) :=
  String.toList_ofList

/-- An identifier holds nothing but identifier characters. -/
theorem isIdentifierChar_of_mem_identifier {name : String} :
    ∀ c ∈ (identifier name).toList, isIdentifierChar c = true := by
  rw [toList_identifier]
  apply isIdentifierChar_of_mem_capitalize
  intro c hc
  obtain ⟨d, -, hd⟩ := List.mem_flatMap.mp hc
  exact isIdentifierChar_of_mem_spellChar hd

/-- Only the empty name has the empty identifier. -/
theorem toList_identifier_ne_nil {name : String} (h : name ≠ "") :
    (identifier name).toList ≠ [] := by
  rw [toList_identifier]
  apply capitalize_ne_nil
  obtain ⟨c, cs, hc⟩ := List.exists_cons_of_ne_nil (mt String.toList_eq_nil_iff.mp h)
  rw [hc, List.flatMap_cons]
  exact List.append_ne_nil_of_left_ne_nil (spellChar_ne_nil c) _

/-! ## Exported identifiers -/

/-- An upper-case letter, and after it only letters, digits and underscores. -/
structure IsExported (cs : List Char) : Prop where
  upper : ∃ c, cs.head? = some c ∧ c.isUpper = true
  chars : ∀ c ∈ cs, isIdentifierChar c = true

theorem isUpper_toUpper {c : Char} (h : c.isLower = true) : c.toUpper.isUpper = true :=
  forall_ascii (P := fun c => c.isLower = true → c.toUpper.isUpper = true) (by decide)
    (toNat_lt_of_isIdentifierChar (isIdentifierChar_of_isLower h)) h

theorem exists_head?_capitalize {cs : List Char} (hne : cs ≠ []) :
    ∃ c, (capitalize cs).head? = some c ∧ c.isUpper = true := by
  cases cs with
  | nil => exact absurd rfl hne
  | cons c cs =>
    rw [capitalize_cons]
    split
    · rename_i hlower
      exact ⟨c.toUpper, rfl, isUpper_toUpper hlower⟩
    · split
      · rename_i hupper
        exact ⟨c, rfl, hupper⟩
      · exact ⟨'P', by simp [lead], by decide⟩

/-- The identifier of a name is exported, unless the name is empty. -/
theorem isExported_identifier {name : String} (h : name ≠ "") :
    IsExported (identifier name).toList := by
  refine ⟨?_, isIdentifierChar_of_mem_identifier⟩
  rw [toList_identifier]
  apply exists_head?_capitalize
  obtain ⟨c, cs, hc⟩ := List.exists_cons_of_ne_nil (mt String.toList_eq_nil_iff.mp h)
  rw [hc, List.flatMap_cons]
  exact List.append_ne_nil_of_left_ne_nil (spellChar_ne_nil c) _

/-! ## Names that are identifiers -/

/-- Identifier characters are spelled as they are. -/
theorem flatMap_spellChar_eq_self {cs : List Char} (h : ∀ c ∈ cs, isIdentifierChar c = true) :
    cs.flatMap spellChar = cs := by
  induction cs with
  | nil => rfl
  | cons c cs ih =>
    obtain ⟨hc, hcs⟩ := List.forall_mem_cons.mp h
    rw [List.flatMap_cons, ih hcs, spellChar, if_pos hc, List.singleton_append]

theorem isLower_eq_false_of_isUpper {c : Char} (h : c.isUpper = true) : c.isLower = false :=
  forall_ascii (P := fun c => c.isUpper = true → c.isLower = false) (by decide)
    (toNat_lt_of_isIdentifierChar (isIdentifierChar_iff.mpr (Or.inl (Or.inl (Or.inl h))))) h

/-- What starts with an upper-case letter is not capitalized any further. -/
theorem capitalize_eq_self {cs : List Char} (h : ∃ c, cs.head? = some c ∧ c.isUpper = true) :
    capitalize cs = cs := by
  obtain ⟨c, hhead, hupper⟩ := h
  obtain ⟨cs, rfl⟩ := List.head?_eq_some_iff.mp hhead
  rw [capitalize_cons, isLower_eq_false_of_isUpper hupper, hupper, if_neg Bool.false_ne_true,
    if_pos rfl]

/-- The names that are their own identifiers are the empty one and the exported identifiers. -/
theorem identifier_eq_self_iff {name : String} :
    identifier name = name ↔ name = "" ∨ IsExported name.toList := by
  constructor
  · intro h
    by_cases hname : name = ""
    · exact Or.inl hname
    · have hexported := isExported_identifier hname
      rw [h] at hexported
      exact Or.inr hexported
  · rintro (rfl | hexported)
    · exact identifier_empty
    · rw [← String.toList_inj, toList_identifier, flatMap_spellChar_eq_self hexported.chars,
        capitalize_eq_self hexported.upper]

theorem identifier_eq_empty_iff {name : String} : identifier name = "" ↔ name = "" := by
  constructor
  · intro h
    apply Decidable.byContradiction
    intro hname
    exact toList_identifier_ne_nil hname (String.toList_eq_nil_iff.mpr h)
  · rintro rfl
    exact identifier_empty

/-- Every name but the empty one has an exported identifier, only the empty name has the empty
identifier, and identifiers are their own identifiers. -/
theorem isExported_and_idempotent_identifier (name : String) :
    (IsExported (identifier name).toList ↔ name ≠ "") ∧ (identifier name = "" ↔ name = "") ∧
      identifier (identifier name) = identifier name := by
  refine ⟨⟨?_, isExported_identifier⟩, identifier_eq_empty_iff, ?_⟩
  · rintro ⟨⟨c, hhead, -⟩, -⟩ rfl
    rw [identifier_empty] at hhead
    cases hhead
  · rw [identifier_eq_self_iff, identifier_eq_empty_iff]
    by_cases hname : name = ""
    · exact Or.inl hname
    · exact Or.inr (isExported_identifier hname)

end ParquetStruct.Struct
