/-
# ParquetStruct.Proofs.Struct.Nesting — the lines of fields are nested in one way only.

Names are made of identifier characters and tags keep their delimiters to themselves, so the lines
of a field say where it ends: a line that opens a struct ends in a brace, the line of a column in a
backquote, and only a line that closes a struct starts with a brace.  Two lists of fields with the
same lines therefore have the same form, and field by field the same tags.
-/
import ParquetStruct.Proofs.Struct.Line
import Mathlib.Data.List.Forall2

namespace ParquetStruct.Struct

open Text

/-! ## Heads -/

/-- A name of identifier characters, together with a tag with plain keys. -/
structure IsHead (head : String × Tag) : Prop where
  name : ∀ c ∈ head.1.toList, isIdentifierChar c = true
  tag : head.2.PlainKeys

theorem HeadOf.isHead {nodes : List (FieldPath × Node)} {head : String × Tag}
    (h : HeadOf nodes head) : IsHead head := by
  obtain ⟨⟨x, -, hname⟩, htag⟩ := h
  exact ⟨hname ▸ isIdentifierChar_of_mem_identifier, htag⟩

theorem isHead_of_fields {maxDepth : Nat} {path : FieldPath} {cs : List Node} {fs : List Field}
    (h : fields maxDepth path cs = .ok fs) : ∀ head ∈ Field.listHeads fs, IsHead head := by
  intro head hhead
  exact (headOf_of_mem_listHeads (fun c _ => headOf_of_field c) h head hhead).isHead

theorem IsHead.not_mem_name {name : String} {tag : Tag} (h : IsHead (name, tag)) {c : Char}
    (hc : isIdentifierChar c = false) : c ∉ name.toList := fun hmem =>
  absurd (h.name c hmem) (by rw [hc]; exact Bool.false_ne_true)

/-! ## The ends of lines -/

theorem getLast?_columnLine {tag : Tag} (h : tag.PlainKeys) (name : String) (r : Repetition)
    (type : ColumnType) : (columnLine name r type tag).getLast? = some '\x60' := by
  rw [columnLine, List.append_cons]
  exact getLast?_tagText (isTagText_chars h) _

theorem getLast?_openingLine (name : String) (r : Repetition) :
    (openingLine name r).getLast? = some '\x7b' := by
  have hline : openingLine name r =
      name.toList ++ ' ' :: ((mark r).toList ++ "struct".toList) ++ [' ', '\x7b'] := by
    rw [openingLine, toList_struct_openBrace, List.append_assoc, List.cons_append,
      List.append_assoc]
  rw [hline, List.getLast?_append_of_ne_nil _ (List.cons_ne_nil _ _)]
  rfl

theorem columnLine_ne_openingLine {tag : Tag} (h : tag.PlainKeys) (name name' : String)
    (r r' : Repetition) (type : ColumnType) :
    columnLine name r type tag ≠ openingLine name' r' := by
  intro heq
  have hlast := getLast?_columnLine h name r type
  rw [heq, getLast?_openingLine] at hlast
  exact absurd hlast (by decide)

/-- The line of a column ends in its tag. -/
theorem chars_eq_of_columnLine_eq {name name' : String} {r r' : Repetition}
    {type type' : ColumnType} {tag tag' : Tag} (h : IsHead (name, tag)) (h' : IsHead (name', tag'))
    (heq : columnLine name r type tag = columnLine name' r' type' tag') :
    tag.chars = tag'.chars := by
  have htype : ' ' ∉ (mark r).toList ++ type.text.toList := (isWord_markedType r type).not_mem rfl
  have htype' : ' ' ∉ (mark r').toList ++ type'.text.toList :=
    (isWord_markedType r' type').not_mem rfl
  unfold columnLine at heq
  rw [List.append_assoc, List.append_assoc, List.cons_append, List.cons_append] at heq
  obtain ⟨-, heq⟩ := append_cons_inj (h.not_mem_name (by decide)) (h'.not_mem_name (by decide)) heq
  exact (append_cons_inj htype htype' heq).2

/-! ## The starts of lines -/

theorem lines_group_append (name : String) (r : Repetition) (fields : List Field) (tag : Tag)
    (rest : List (List Char)) :
    (Field.group name r fields tag).lines ++ rest =
      openingLine name r :: (Field.listLines fields ++ closingLine tag :: rest) := by
  simp [Field.lines]

theorem head?_ne_closeBrace {name : String} {tag : Tag} (h : IsHead (name, tag))
    (cs : List Char) : (name.toList ++ ' ' :: cs).head? ≠ some '\x7d' := by
  have hbrace := h.not_mem_name (c := '\x7d') (by decide)
  cases hname : name.toList with
  | nil =>
    rw [List.nil_append, List.head?_cons]
    decide
  | cons c ds =>
    rw [List.cons_append, List.head?_cons]
    intro hc
    rw [hname, Option.some.inj hc] at hbrace
    exact hbrace List.mem_cons_self

/-- A field has a first line, and it does not close a struct. -/
theorem exists_lines_eq_cons {f : Field} (h : ∀ head ∈ f.heads, IsHead head) :
    ∃ l ls, f.lines = l :: ls ∧ l.head? ≠ some '\x7d' := by
  cases f with
  | column name r type tag =>
    have hhead := h (name, tag) (List.mem_singleton_self _)
    refine ⟨columnLine name r type tag, [], rfl, ?_⟩
    rw [columnLine, List.append_assoc]
    exact head?_ne_closeBrace hhead _
  | group name r fields tag =>
    have hhead := h (name, tag) List.mem_cons_self
    exact ⟨openingLine name r, Field.listLines fields ++ [closingLine tag], rfl,
      head?_ne_closeBrace hhead _⟩

/-- Lines of which the first, if there is one, closes a struct. -/
def StartsOutside (ls : List (List Char)) : Prop :=
  ∀ l, ls.head? = some l → l.head? = some '\x7d'

theorem startsOutside_nil : StartsOutside [] := nofun

theorem startsOutside_closingLine (tag : Tag) (ls : List (List Char)) :
    StartsOutside (closingLine tag :: ls) := by
  rintro l hl
  cases hl
  rfl

theorem not_startsOutside_lines {f : Field} (h : ∀ head ∈ f.heads, IsHead head)
    (ls : List (List Char)) : ¬StartsOutside (f.lines ++ ls) := by
  obtain ⟨l, ls', hlines, hl⟩ := exists_lines_eq_cons h
  intro houtside
  rw [hlines] at houtside
  exact hl (houtside l rfl)

/-! ## Fields of the same form -/

/-- Fields of the same form, with tags of the same text at every place. -/
inductive SameTags : Field → Field → Prop
  | column {name name' : String} {r r' : Repetition} {type type' : ColumnType} {tag tag' : Tag}
      (htag : tag.chars = tag'.chars) :
      SameTags (.column name r type tag) (.column name' r' type' tag')
  | group {name name' : String} {r r' : Repetition} {fields fields' : List Field} {tag tag' : Tag}
      (hfields : List.Forall₂ SameTags fields fields') (htag : tag.chars = tag'.chars) :
      SameTags (.group name r fields tag) (.group name' r' fields' tag')

theorem chars_eq_of_closingLine_eq {tag tag' : Tag} (h : closingLine tag = closingLine tag') :
    tag.chars = tag'.chars :=
  (List.cons.inj (List.cons.inj h).2).2

/-- Fields in a row end where their lines say so, if each of them does. -/
theorem sameTags_of_listLines_append {fs : List Field}
    (hfs : ∀ head ∈ Field.listHeads fs, IsHead head)
    (ih : ∀ f ∈ fs, (∀ head ∈ f.heads, IsHead head) → ∀ g, (∀ head ∈ g.heads, IsHead head) →
      ∀ rest rest', f.lines ++ rest = g.lines ++ rest' → SameTags f g ∧ rest = rest')
    {gs : List Field} (hgs : ∀ head ∈ Field.listHeads gs, IsHead head)
    {rest rest' : List (List Char)} (hrest : StartsOutside rest) (hrest' : StartsOutside rest')
    (h : Field.listLines fs ++ rest = Field.listLines gs ++ rest') :
    List.Forall₂ SameTags fs gs ∧ rest = rest' := by
  induction fs generalizing gs with
  | nil =>
    cases gs with
    | nil => exact ⟨.nil, h⟩
    | cons g gs =>
      -- A further field on one side would stand where the other side is already outside.
      rw [Field.listHeads_cons, List.forall_mem_append] at hgs
      rw [Field.listLines_nil, List.nil_append, Field.listLines_cons, List.append_assoc] at h
      exact absurd (h ▸ hrest) (not_startsOutside_lines hgs.1 _)
  | cons f fs ihfs =>
    rw [Field.listHeads_cons, List.forall_mem_append] at hfs
    cases gs with
    | nil =>
      rw [Field.listLines_nil, List.nil_append, Field.listLines_cons, List.append_assoc] at h
      exact absurd (h ▸ hrest') (not_startsOutside_lines hfs.1 _)
    | cons g gs =>
      rw [Field.listHeads_cons, List.forall_mem_append] at hgs
      rw [Field.listLines_cons, Field.listLines_cons, List.append_assoc, List.append_assoc] at h
      obtain ⟨hfg, h⟩ := ih f List.mem_cons_self hfs.1 g hgs.1 _ _ h
      obtain ⟨htail, hend⟩ :=
        ihfs hfs.2 (fun e he => ih e (List.mem_cons_of_mem f he)) hgs.2 h
      exact ⟨.cons hfg htail, hend⟩

/-- A field ends where its lines say so, whatever comes after it. -/
theorem sameTags_of_lines_append (f : Field) : (∀ head ∈ f.heads, IsHead head) →
    ∀ g, (∀ head ∈ g.heads, IsHead head) → ∀ rest rest',
      f.lines ++ rest = g.lines ++ rest' → SameTags f g ∧ rest = rest' := by
  -- The first lines tell a column from a group; what comes after must be arbitrary, since inside a
  -- group it is the rest of the outer fields.
  induction f using Field.induction with
  | column name r type tag =>
    intro hf g hg rest rest' h
    have hhead := hf (name, tag) (List.mem_singleton_self _)
    cases g with
    | column name' r' type' tag' =>
      obtain ⟨hline, hend⟩ := List.cons.inj h
      have hhead' := hg (name', tag') (List.mem_singleton_self _)
      exact ⟨.column (chars_eq_of_columnLine_eq hhead hhead' hline), hend⟩
    | group name' r' fields' tag' =>
      rw [lines_group_append] at h
      exact absurd (List.cons.inj h).1 (columnLine_ne_openingLine hhead.tag name name' r r' type)
  | group name r fields tag ih =>
    intro hf g hg rest rest' h
    cases g with
    | column name' r' type' tag' =>
      have hhead' := hg (name', tag') (List.mem_singleton_self _)
      rw [lines_group_append] at h
      exact absurd (List.cons.inj h).1.symm
        (columnLine_ne_openingLine hhead'.tag name' name r' r type')
    | group name' r' fields' tag' =>
      rw [lines_group_append, lines_group_append] at h
      -- The closing lines stand outside the fields they close, so the fields end before them.
      have hinner := (List.cons.inj h).2
      obtain ⟨hfields, hclosing⟩ := sameTags_of_listLines_append
        (fun head hhead => hf head (List.mem_cons_of_mem _ hhead)) ih
        (fun head hhead => hg head (List.mem_cons_of_mem _ hhead))
        (startsOutside_closingLine tag rest) (startsOutside_closingLine tag' rest') hinner
      obtain ⟨hline, hend⟩ := List.cons.inj hclosing
      exact ⟨.group hfields (chars_eq_of_closingLine_eq hline), hend⟩

/-! ## Structs -/

theorem newline_not_mem_columnLine {name : String} {tag : Tag} (h : IsHead (name, tag))
    (r : Repetition) (type : ColumnType) : '\n' ∉ columnLine name r type tag := by
  rw [columnLine, List.mem_append, List.mem_append, List.mem_cons, List.mem_cons]
  rintro ((hc | hc | hc) | hc | hc)
  · exact h.not_mem_name (by decide) hc
  · exact absurd hc (by decide)
  · exact (isWord_markedType r type).not_mem rfl hc
  · exact absurd hc (by decide)
  · exact (isTagText_chars h.tag).noNewline hc

theorem newline_not_mem_openingLine {name : String} {tag : Tag} (h : IsHead (name, tag))
    (r : Repetition) : '\n' ∉ openingLine name r := by
  rw [openingLine, List.mem_append, List.mem_cons, List.mem_append]
  rintro (hc | hc | hc | hc)
  · exact h.not_mem_name (by decide) hc
  · exact absurd hc (by decide)
  · exact absurd (isWordChar_of_mem_mark r _ hc) (by decide)
  · exact absurd hc (by decide)

theorem newline_not_mem_closingLine {tag : Tag} (h : tag.PlainKeys) : '\n' ∉ closingLine tag := by
  rw [closingLine, List.mem_cons, List.mem_cons]
  rintro (hc | hc | hc)
  · exact absurd hc (by decide)
  · exact absurd hc (by decide)
  · exact (isTagText_chars h).noNewline hc

theorem newline_not_mem_lines (f : Field) : (∀ head ∈ f.heads, IsHead head) →
    ∀ l ∈ f.lines, '\n' ∉ l := by
  induction f using Field.induction with
  | column name r type tag =>
    intro hf l hl
    rw [List.mem_singleton.mp hl]
    exact newline_not_mem_columnLine (hf (name, tag) (List.mem_singleton_self _)) r type
  | group name r fields tag ih =>
    intro hf l hl
    have hhead := hf (name, tag) List.mem_cons_self
    rw [← List.append_nil (Field.lines _), lines_group_append, List.mem_cons, List.mem_append,
      List.mem_singleton, Field.mem_listLines] at hl
    rcases hl with rfl | ⟨f, hmem, hl⟩ | rfl
    · exact newline_not_mem_openingLine hhead r
    · refine ih f hmem (fun head hhead => hf head (List.mem_cons_of_mem _ ?_)) l hl
      exact Field.mem_listHeads.mpr ⟨f, hmem, hhead⟩
    · exact newline_not_mem_closingLine hhead.tag

theorem newline_not_mem_listLines {fs : List Field}
    (h : ∀ head ∈ Field.listHeads fs, IsHead head) : ∀ l ∈ Field.listLines fs, '\n' ∉ l := by
  intro l hl
  obtain ⟨f, hf, hl⟩ := Field.mem_listLines.mp hl
  exact newline_not_mem_lines f
    (fun head hhead => h head (Field.mem_listHeads.mpr ⟨f, hf, hhead⟩)) l hl

/-- Structs of the same text have fields of the same form, with the same tags. -/
theorem sameTags_of_chars_eq {fs gs : List Field} (hfs : ∀ head ∈ Field.listHeads fs, IsHead head)
    (hgs : ∀ head ∈ Field.listHeads gs, IsHead head)
    (h : (Body.struct fs).chars = (Body.struct gs).chars) : List.Forall₂ SameTags fs gs := by
  have hchars (es : List Field) : (Body.struct es).chars =
      "struct \x7b".toList ++ '\n' :: (unlines (Field.listLines es) ++ ['\x7d']) := by
    rw [Body.chars, structChars_eq, Field.listChars_eq_unlines fun f _ => f.chars_eq_unlines]
  rw [hchars fs, hchars gs, List.append_cancel_left_eq] at h
  -- No line holds a newline, so the text determines the lines.
  have hlines := (unlines_append_inj (newline_not_mem_listLines hfs)
    (newline_not_mem_listLines hgs) (by decide) (by decide) (List.cons.inj h).2).1
  have happend : Field.listLines fs ++ [] = Field.listLines gs ++ [] := by rw [hlines]
  exact (sameTags_of_listLines_append hfs (fun f _ => sameTags_of_lines_append f) hgs
    startsOutside_nil startsOutside_nil happend).1

end ParquetStruct.Struct
