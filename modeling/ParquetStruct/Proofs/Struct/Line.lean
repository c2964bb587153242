/-
# ParquetStruct.Proofs.Struct.Line — the lines of rendered text.

A field is one line, or an opening line, the lines of its own fields and a closing line; a
declaration has a line in front of its fields and a brace after them.  The text of a declaration is
these lines with newlines between them.  As names are identifiers and tags hold neither a backquote
nor a newline between their delimiters, there are only three forms of lines, collected in
`Rendered`: words with single spaces between them, a name and a type before a tag, and a closing
brace before a tag.
-/
import ParquetStruct.Proofs.Struct.Column
import ParquetStruct.Proofs.Text.Line

namespace ParquetStruct.Struct

open Text

/-! ## Lines of fields and declarations -/

/-- The line of a column. -/
def columnLine (name : String) (repetition : Repetition) (type : ColumnType) (tag : Tag) :
    List Char :=
  name.toList ++ ' ' :: ((mark repetition).toList ++ type.text.toList) ++ ' ' :: tag.chars

/-- The line that opens a nested struct. -/
def openingLine (name : String) (repetition : Repetition) : List Char :=
  name.toList ++ ' ' :: ((mark repetition).toList ++ "struct \x7b".toList)

/-- The line that closes a nested struct. -/
def closingLine (tag : Tag) : List Char :=
  '\x7d' :: ' ' :: tag.chars

mutual

/-- The lines of a field. -/
def Field.lines : Field → List (List Char)
  | .column name r type tag => [columnLine name r type tag]
  | .group name r fields tag => openingLine name r :: Field.listLines fields ++ [closingLine tag]

/-- The lines of fields one after the other. -/
def Field.listLines : List Field → List (List Char)
  | [] => []
  | f :: fs => f.lines ++ Field.listLines fs

end

/-- The lines of a declaration but for the last. -/
def Declaration.leadingLines (d : Declaration) : List (List Char) :=
  match d.body with
  | .column _ => []
  | .struct fields =>
    ("type ".toList ++ d.name.toList ++ ' ' :: "struct \x7b".toList) :: Field.listLines fields

/-- The last line of a declaration. -/
def Declaration.lastLine (d : Declaration) : List Char :=
  match d.body with
  | .column type => "type ".toList ++ d.name.toList ++ ' ' :: type.text.toList
  | .struct _ => ['\x7d']

@[simp] theorem Field.listLines_nil : Field.listLines [] = [] := rfl

@[simp] theorem Field.listLines_cons (f : Field) (fs : List Field) :
    Field.listLines (f :: fs) = f.lines ++ Field.listLines fs := rfl

theorem Field.mem_listLines {l : List Char} {fs : List Field} :
    l ∈ Field.listLines fs ↔ ∃ f ∈ fs, l ∈ f.lines := by
  induction fs with
  | nil => simp
  | cons f fs ih => simp [ih]

/-- What holds of columns, and of a group if it holds of its fields, holds of every field. -/
@[elab_as_elim]
theorem Field.induction {P : Field → Prop}
    (column : ∀ name r type tag, P (.column name r type tag))
    (group : ∀ name r fields tag, (∀ f ∈ fields, P f) → P (.group name r fields tag))
    (f : Field) : P f :=
  @Field.rec P (fun fs => ∀ f ∈ fs, P f) column (fun name r fields tag ih => group name r fields tag ih)
    (by simp) (fun _ _ hf hfs => List.forall_mem_cons.mpr ⟨hf, hfs⟩) f

theorem Field.listChars_eq_unlines {fs : List Field}
    (h : ∀ f ∈ fs, f.chars = unlines f.lines) :
    Field.listChars fs = unlines (Field.listLines fs) := by
  induction fs with
  | nil => rfl
  | cons f fs ih =>
    rw [Field.listChars_cons, Field.listLines_cons, unlines_append, h f List.mem_cons_self,
      ih fun g hg => h g (List.mem_cons_of_mem f hg)]

theorem fieldChars_eq_unlines (name : String) (r : Repetition) (type : ColumnType) (tag : Tag) :
    fieldChars name r type.text.toList tag = unlines [columnLine name r type tag] := by
  unfold fieldChars columnLine
  rw [unlines_cons, unlines_nil]
  simp only [List.append_assoc, List.cons_append]

theorem structChars_eq (cs : List Char) :
    structChars cs = "struct \x7b".toList ++ '\n' :: (cs ++ ['\x7d']) := by
  unfold structChars
  simp

theorem structChars_eq_unlines (name : String) (r : Repetition) (ls : List (List Char))
    (tag : Tag) :
    fieldChars name r (structChars (unlines ls)) tag =
      unlines (openingLine name r :: ls ++ [closingLine tag]) := by
  unfold fieldChars openingLine closingLine
  rw [structChars_eq, List.cons_append, unlines_cons, unlines_append, unlines_cons, unlines_nil]
  simp only [List.append_assoc, List.cons_append, List.nil_append]

/-- The text of a field is its lines, each with a newline after it. -/
theorem Field.chars_eq_unlines (f : Field) : f.chars = unlines f.lines := by
  induction f using Field.induction with
  | column name r type tag => exact fieldChars_eq_unlines name r type tag
  | group name r fields tag ih =>
    -- The inner fields stand between the braces as their lines, by the hypothesis for each.
    show fieldChars name r (structChars (Field.listChars fields)) tag = _
    rw [Field.listChars_eq_unlines ih]
    exact structChars_eq_unlines name r (Field.listLines fields) tag

/-- The text of a declaration is its lines with newlines between them. -/
theorem Declaration.chars_eq (d : Declaration) :
    d.chars = unlines d.leadingLines ++ d.lastLine := by
  unfold Declaration.chars Declaration.leadingLines Declaration.lastLine
  cases d.body with
  | column type =>
    dsimp only [Body.chars]
    rw [unlines_nil, List.nil_append]
  | struct fields =>
    dsimp only [Body.chars]
    rw [Field.listChars_eq_unlines fun f _ => f.chars_eq_unlines, structChars_eq, unlines_cons]
    simp only [List.append_assoc, List.cons_append]

/-! ## Words and tags -/

/-- The characters of words: all but white space and the backquote. -/
def isWordChar (c : Char) : Bool :=
  !isBlank c && c != '\x60'

/-- A run of word characters, at least one. -/
structure IsWord (w : List Char) : Prop where
  ne_nil : w ≠ []
  chars : ∀ c ∈ w, isWordChar c = true

instance (w : List Char) : Decidable (IsWord w) :=
  decidable_of_iff (w ≠ [] ∧ w.all isWordChar = true)
    ⟨fun h => ⟨h.1, List.all_eq_true.mp h.2⟩, fun h => ⟨h.ne_nil, List.all_eq_true.mpr h.chars⟩⟩

/-- A text on one line that starts and ends with a backquote. -/
structure IsTagText (cs : List Char) : Prop where
  head : cs.head? = some '\x60'
  last : cs.getLast? = some '\x60'
  noNewline : '\n' ∉ cs

theorem isWordChar_of_isIdentifierChar {c : Char} (h : isIdentifierChar c = true) :
    isWordChar c = true :=
  forall_ascii (P := fun c => isIdentifierChar c = true → isWordChar c = true) (by decide)
    (toNat_lt_of_isIdentifierChar h) h

theorem isWord_identifier {name : String} (h : name ≠ "") : IsWord (identifier name).toList :=
  ⟨toList_identifier_ne_nil h, fun c hc =>
    isWordChar_of_isIdentifierChar (isIdentifierChar_of_mem_identifier c hc)⟩

theorem IsWord.not_mem {w : List Char} (h : IsWord w) {c : Char} (hc : isWordChar c = false) :
    c ∉ w := by
  intro hmem
  rw [h.chars c hmem] at hc
  cases hc

/-- What is put in front of a word makes it a longer word, if it is made of word characters. -/
theorem IsWord.append_left {v w : List Char} (hw : IsWord w)
    (hv : ∀ c ∈ v, isWordChar c = true) : IsWord (v ++ w) :=
  ⟨List.append_ne_nil_of_right_ne_nil v hw.ne_nil, List.forall_mem_append.mpr ⟨hv, hw.chars⟩⟩

theorem isWordChar_of_mem_mark (r : Repetition) : ∀ c ∈ (mark r).toList, isWordChar c = true := by
  cases r <;> exact List.all_eq_true.mp (by decide)

theorem isWord_scalar (t : Scalar) : IsWord t.text.toList := by
  cases t <;> decide

theorem isWord_columnType (t : ColumnType) : IsWord t.text.toList := by
  cases t with
  | scalar t => exact isWord_scalar t
  | list r element =>
    have hbrackets : IsWord "[]".toList := by decide
    have h := ((isWord_scalar element).append_left (isWordChar_of_mem_mark r)).append_left
      hbrackets.chars
    simpa [ColumnType.text] using h
  | map key r value =>
    have hvalue := (isWord_scalar value).append_left (isWordChar_of_mem_mark r)
    have hmap : IsWord "map[".toList := by decide
    have hclose : IsWord "]".toList := by decide
    have h := ((hvalue.append_left hclose.chars).append_left (isWord_scalar key).chars).append_left
      hmap.chars
    simpa [ColumnType.text] using h

theorem isWord_markedType (r : Repetition) (t : ColumnType) :
    IsWord ((mark r).toList ++ t.text.toList) :=
  (isWord_columnType t).append_left (isWordChar_of_mem_mark r)

theorem isWord_struct : IsWord "struct".toList := by decide

theorem isWord_openBrace : IsWord ['\x7b'] := by decide

theorem isWord_closeBrace : IsWord ['\x7d'] := by decide

theorem IsTagText.ne_nil {tag : List Char} (h : IsTagText tag) : tag ≠ [] := by
  rintro rfl
  exact absurd h.head (by decide)

theorem getLast?_tagText {tag : List Char} (h : IsTagText tag) (cs : List Char) :
    (cs ++ tag).getLast? = some '\x60' := by
  rw [List.getLast?_append_of_ne_nil cs h.ne_nil, h.last]

theorem isTagText_chars {t : Tag} (h : t.PlainKeys) : IsTagText t.chars := by
  refine ⟨rfl, ?_, ?_⟩
  · rw [Tag.chars_eq, List.getLast?_append_of_ne_nil _ (by decide)]
    rfl
  · -- A newline is reserved, so it cannot stand in the content either.
    rw [Tag.chars_eq, List.mem_append, List.mem_append]
    rintro ((hn | hn) | hn)
    · exact absurd hn (by decide)
    · exact absurd (Tag.reserved_of_mem_content h hn (by decide)) (by decide)
    · exact absurd hn (by decide)

/-! ## Names and tags -/

mutual

/-- The names and tags of a field and of the fields inside it. -/
def Field.heads : Field → List (String × Tag)
  | .column name _ _ tag => [(name, tag)]
  | .group name _ fields tag => (name, tag) :: Field.listHeads fields

/-- The names and tags of fields one after the other. -/
def Field.listHeads : List Field → List (String × Tag)
  | [] => []
  | f :: fs => f.heads ++ Field.listHeads fs

end

/-- The names and tags of a declaration, its own name apart. -/
def Declaration.heads (d : Declaration) : List (String × Tag) :=
  match d.body with
  | .column _ => []
  | .struct fields => Field.listHeads fields

@[simp] theorem Field.listHeads_cons (f : Field) (fs : List Field) :
    Field.listHeads (f :: fs) = f.heads ++ Field.listHeads fs := rfl

theorem Field.mem_listHeads {head : String × Tag} {fs : List Field} :
    head ∈ Field.listHeads fs ↔ ∃ f ∈ fs, head ∈ f.heads := by
  induction fs with
  | nil => simp [Field.listHeads]
  | cons f fs ih => simp [ih]

/-- A head comes from one of the given nodes: its name is an identifier, its keys are plain. -/
def HeadOf (nodes : List (FieldPath × Node)) (head : String × Tag) : Prop :=
  (∃ x ∈ nodes, head.1 = identifier x.2.name) ∧ head.2.PlainKeys

theorem HeadOf.mono {nodes nodes' : List (FieldPath × Node)} {head : String × Tag}
    (h : HeadOf nodes head) (hsub : nodes ⊆ nodes') : HeadOf nodes' head := by
  obtain ⟨⟨x, hx, hname⟩, hplain⟩ := h
  exact ⟨⟨x, hsub hx, hname⟩, hplain⟩

theorem headOf_of_mem_listHeads {maxDepth : Nat} {path : FieldPath} {cs : List Node}
    (ih : ∀ c ∈ cs, ∀ (path : FieldPath) (f : Field), field maxDepth path c = .ok f →
      ∀ head ∈ f.heads, HeadOf (fieldNodes path c) head)
    {fs : List Field} (h : fields maxDepth path cs = .ok fs) :
    ∀ head ∈ Field.listHeads fs, HeadOf (fieldNodesBelow path cs) head := by
  induction cs generalizing fs with
  | nil =>
    cases h
    exact nofun
  | cons c cs ihcs =>
    obtain ⟨f, gs, hf, hgs, rfl⟩ := fields_cons_eq_ok h
    rw [Field.listHeads_cons, List.forall_mem_append, fieldNodesBelow_cons]
    constructor
    · intro head hhead
      exact (ih c List.mem_cons_self _ f hf head hhead).mono (List.subset_append_left _ _)
    · intro head hhead
      exact (ihcs (fun d hd => ih d (List.mem_cons_of_mem c hd)) hgs head hhead).mono
        (List.subset_append_right _ _)

/-- Every head of a field comes from a field node. -/
theorem headOf_of_field {maxDepth : Nat} (n : Node) :
    ∀ (path : FieldPath) (f : Field), field maxDepth path n = .ok f →
      ∀ head ∈ f.heads, HeadOf (fieldNodes path n) head := by
  induction n using Node.induction with
  | step n ih =>
    intro path f hf
    have hself : ∃ x ∈ fieldNodes path n, identifier n.name = identifier x.2.name :=
      ⟨(path, n), mem_fieldNodes_self path n, rfl⟩
    rcases (field_eq_ok hf).2 with ⟨c, hc, rfl⟩ | ⟨fs, hs, hfs, rfl⟩
    · -- The only head of a column is its own.
      have hplain := (isColumn_of_column? hc).plainKeys
      intro head hhead
      rw [List.mem_singleton.mp hhead]
      exact ⟨hself, plainKeys_fieldTag n hplain.1 hplain.2⟩
    · -- A group has a head of its own, and those of its fields, which come from below the node.
      intro head hhead
      rcases List.mem_cons.mp hhead with rfl | hhead
      · exact ⟨hself, plainKeys_fieldTag n Tag.plainKeys_empty Tag.plainKeys_empty⟩
      · refine (headOf_of_mem_listHeads ih hfs head hhead).mono ?_
        rw [fieldNodes_of_struct hs]
        exact List.subset_cons_self _ _

/-- Every head of a declaration comes from a field node of the tree. -/
theorem headOf_of_declaration {maxDepth : Nat} {root : Node} {d : Declaration}
    (h : declaration maxDepth root = .ok d) : ∀ head ∈ d.heads, HeadOf (treeNodes root) head := by
  obtain ⟨b, hb, hd⟩ := bind_eq_ok_iff.mp h
  cases hd
  rcases body_eq_ok hb with ⟨c, -, rfl⟩ | ⟨fs, hs, hfs, rfl⟩
  · exact nofun
  · intro head hhead
    refine (headOf_of_mem_listHeads (fun c _ => headOf_of_field c) hfs head hhead).mono ?_
    rw [treeNodes, fieldNodes_of_struct hs]
    exact List.subset_cons_self _ _

/-! ## The forms of lines -/

/-- The lines that rendered text is made of. -/
inductive Rendered : List Char → Prop
  /-- Words with single spaces between them. -/
  | words {ws : List (List Char)} (h : ∀ w ∈ ws, IsWord w) (hne : ws ≠ []) :
      Rendered ([' '].intercalate ws)
  /-- Name, type and tag of a column. -/
  | column {name type tag : List Char} (hname : IsWord name) (htype : IsWord type)
      (htag : IsTagText tag) : Rendered (name ++ ' ' :: type ++ ' ' :: tag)
  /-- The end of a nested struct, with the tag of its field. -/
  | closing {tag : List Char} (htag : IsTagText tag) : Rendered ('\x7d' :: ' ' :: tag)

theorem toList_struct_openBrace : "struct \x7b".toList = "struct".toList ++ [' ', '\x7b'] := by
  simp

theorem rendered_openingLine {name : String} (h : IsWord name.toList) (r : Repetition) :
    Rendered (openingLine name r) := by
  have hline : openingLine name r =
      [' '].intercalate [name.toList, (mark r).toList ++ "struct".toList, ['\x7b']] := by
    rw [openingLine, toList_struct_openBrace]
    simp
  rw [hline]
  refine .words ?_ (List.cons_ne_nil _ _)
  simp only [List.forall_mem_cons]
  exact ⟨h, isWord_struct.append_left (isWordChar_of_mem_mark r), isWord_openBrace, nofun⟩

/-- A field whose names are words and whose keys are plain has rendered lines. -/
theorem Field.rendered_of_mem_lines (f : Field)
    (h : ∀ head ∈ f.heads, IsWord head.1.toList ∧ head.2.PlainKeys) :
    ∀ l ∈ f.lines, Rendered l := by
  induction f using Field.induction with
  | column name r type tag =>
    obtain ⟨hname, htag⟩ := h (name, tag) (List.mem_singleton_self _)
    intro l hl
    rw [List.mem_singleton.mp hl]
    exact .column hname (isWord_markedType r type) (isTagText_chars htag)
  | group name r fields tag ih =>
    obtain ⟨hname, htag⟩ := h (name, tag) List.mem_cons_self
    intro l hl
    show Rendered l
    have hl : l = openingLine name r ∨ (∃ f ∈ fields, l ∈ f.lines) ∨ l = closingLine tag := by
      rw [← Field.mem_listLines]
      simpa [Field.lines, List.mem_append, List.mem_cons, or_assoc] using hl
    rcases hl with rfl | ⟨f, hf, hl⟩ | rfl
    · exact rendered_openingLine hname r
    · refine ih f hf (fun head hhead => h head ?_) l hl
      exact List.mem_cons_of_mem _ (Field.mem_listHeads.mpr ⟨f, hf, hhead⟩)
    · exact .closing (isTagText_chars htag)

theorem toList_type_space : "type ".toList = "type".toList ++ [' '] := by
  simp

theorem isWord_type : IsWord "type".toList := by decide

/-- A declaration whose names are words and whose keys are plain has rendered lines. -/
theorem Declaration.rendered {d : Declaration} (hname : IsWord d.name.toList)
    (h : ∀ head ∈ d.heads, IsWord head.1.toList ∧ head.2.PlainKeys) :
    (∀ l ∈ d.leadingLines, Rendered l) ∧ Rendered d.lastLine := by
  unfold Declaration.heads at h
  unfold Declaration.leadingLines Declaration.lastLine
  cases hbody : d.body with
  | column type =>
    refine ⟨nofun, ?_⟩
    have hline : "type ".toList ++ d.name.toList ++ ' ' :: type.text.toList =
        [' '].intercalate ["type".toList, d.name.toList, type.text.toList] := by
      rw [toList_type_space]
      simp
    dsimp only
    rw [hline]
    refine .words ?_ (List.cons_ne_nil _ _)
    simp only [List.forall_mem_cons]
    exact ⟨isWord_type, hname, isWord_columnType type, nofun⟩
  | struct fields =>
    rw [hbody] at h
    dsimp only at h ⊢
    refine ⟨List.forall_mem_cons.mpr ⟨?_, ?_⟩, ?_⟩
    · have hline : "type ".toList ++ d.name.toList ++ ' ' :: "struct \x7b".toList =
          [' '].intercalate ["type".toList, d.name.toList, "struct".toList, ['\x7b']] := by
        rw [toList_type_space, toList_struct_openBrace]
        simp
      rw [hline]
      refine .words ?_ (List.cons_ne_nil _ _)
      simp only [List.forall_mem_cons]
      exact ⟨isWord_type, hname, isWord_struct, isWord_openBrace, nofun⟩
    · intro l hl
      obtain ⟨f, hf, hl⟩ := Field.mem_listLines.mp hl
      exact f.rendered_of_mem_lines
        (fun head hhead => h head (Field.mem_listHeads.mpr ⟨f, hf, hhead⟩)) l hl
    · have hline : ['\x7d'] = [' '].intercalate [['\x7d']] := List.intercalate_singleton.symm
      rw [hline]
      exact .words (List.forall_mem_singleton.mpr isWord_closeBrace) (List.cons_ne_nil _ _)

end ParquetStruct.Struct
