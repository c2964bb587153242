/-
# ParquetStruct.Proofs.Struct.Grammar — rendered text is Go, line by line.

The text of a struct has lines of five forms, told apart by how they start and end.  Names are
exported identifiers, types are built from scalars, and tags hold nothing that would end them early,
whatever the raw names in the schema are made of.  One thing is left to the raw names: the
identifier of the empty name is empty, so what counts as a name is a parameter of the forms.  The
lines with a name stand for the field nodes of the tree, in the same order.
-/
import ParquetStruct.Proofs.Struct.Nesting
import ParquetStruct.Proofs.Struct.Layout

namespace ParquetStruct.Struct

open Text

/-! ## Identifiers -/

/-- The identifier that a name becomes: exported, or empty like the name. -/
structure IsIdentifierOf (name : String) (cs : List Char) : Prop where
  eq : cs = (identifier name).toList
  exported : name ≠ "" → IsExported cs
  empty : name = "" → cs = []

theorem isIdentifierOf_identifier (name : String) :
    IsIdentifierOf name (identifier name).toList :=
  ⟨rfl, isExported_identifier, by rintro rfl; rfl⟩

/-- An exported identifier, or the empty one. -/
def IsName (cs : List Char) : Prop := cs = [] ∨ IsExported cs

theorem IsIdentifierOf.isName {name : String} {cs : List Char} (h : IsIdentifierOf name cs) :
    IsName cs := by
  by_cases hname : name = ""
  · exact Or.inl (h.empty hname)
  · exact Or.inr (h.exported hname)

/-! ## Types and tags -/

/-- The Go types made of scalars: pointers, slices, and maps whose keys can be compared. -/
inductive IsGoType : List Char → Prop
  | scalar (t : Scalar) : IsGoType t.text.toList
  | pointer {cs : List Char} (h : IsGoType cs) : IsGoType ('*' :: cs)
  | slice {cs : List Char} (h : IsGoType cs) : IsGoType ('[' :: ']' :: cs)
  | map {key : Scalar} (hkey : key ≠ .bytes) {cs : List Char} (h : IsGoType cs) :
      IsGoType ("map[".toList ++ key.text.toList ++ ']' :: cs)

theorem IsGoType.marked {cs : List Char} (h : IsGoType cs) (r : Repetition) :
    IsGoType ((mark r).toList ++ cs) := by
  cases r with
  | required => exact h
  | optional => exact .pointer h
  | repeated => exact .slice h

theorem scalarOfInt32_ne_bytes (width : Option (Int8 × Bool)) : scalarOfInt32 width ≠ .bytes := by
  unfold scalarOfInt32
  repeat' split
  all_goals exact Scalar.noConfusion

theorem scalarOfInt64_ne_bytes (width : Option (Int8 × Bool)) : scalarOfInt64 width ≠ .bytes := by
  unfold scalarOfInt64
  split
  · exact Scalar.noConfusion
  · exact Scalar.noConfusion

/-- Where bytes are the key of a map, they are a string. -/
theorem scalarType_ne_bytes (n : Node) (t : PhysicalType) : scalarType n t true ≠ .bytes := by
  cases t with
  | int32 => exact scalarOfInt32_ne_bytes _
  | int64 => exact scalarOfInt64_ne_bytes _
  | _ => simp [scalarType]

theorem isGoType_list (r : Repetition) (element : Scalar) :
    IsGoType (ColumnType.list r element).text.toList := by
  have h := ((IsGoType.scalar element).marked r).slice
  simpa [ColumnType.text] using h

theorem isGoType_map {key : Scalar} (hkey : key ≠ .bytes) (r : Repetition) (value : Scalar) :
    IsGoType (ColumnType.map key r value).text.toList := by
  have h := ((IsGoType.scalar value).marked r).map hkey
  simpa [ColumnType.text] using h

theorem IsColumn.isGoType {n : Node} {path : FieldPath} {c : Column} (h : IsColumn n path c) :
    IsGoType c.type.text.toList := by
  cases h with
  | scalar _ => exact .scalar _
  | list _ _ => exact isGoType_list _ _
  | map _ _ _ => exact isGoType_map (scalarType_ne_bytes _ _) _ _

/-- Whether a character may stand between the quotes of a tag: no delimiter, no backslash and no
ASCII control character may. -/
def isTagChar (c : Char) : Bool :=
  c != '\x60' && c != '"' && c != '\\' && !decide (c.toNat < 0x20) && c.toNat != 0x7f

/-- A struct tag in backquotes, under the key `parquet`. -/
inductive IsGoTag : List Char → Prop
  | mk {content : List Char} (h : ∀ c ∈ content, isTagChar c = true) :
      IsGoTag ("`parquet:\"".toList ++ content ++ "\"`".toList)

theorem isTagChar_of_mem_content {t : Tag} (ht : t.PlainKeys) {c : Char} (h : c ∈ t.content) :
    isTagChar c = true := by
  cases hc : Tag.isReserved c with
  | true =>
    rcases Tag.reserved_of_mem_content ht h hc with rfl | rfl
    · decide
    · decide
  | false =>
    simp only [Tag.isReserved, Bool.or_eq_false_iff] at hc
    simp [isTagChar, bne, hc]

theorem isGoTag_chars {t : Tag} (h : t.PlainKeys) : IsGoTag t.chars := by
  rw [Tag.chars_eq]
  exact .mk fun c hc => isTagChar_of_mem_content h hc

/-! ## The forms of lines -/

/-- What a line of a declaration does. -/
inductive LineKind where
  | declaration
  | column
  | opening
  | closing
  | final
  deriving DecidableEq, Repr

/-- The forms that lines take, given what counts as a name. -/
inductive HasForm (P : List Char → Prop) : LineKind → List Char → Prop
  | declaration {name : List Char} (hname : P name) :
      HasForm P .declaration ("type ".toList ++ name ++ ' ' :: "struct \x7b".toList)
  | column {name type tag : List Char} (hname : P name) (htype : IsGoType type)
      (htag : IsGoTag tag) : HasForm P .column (name ++ ' ' :: type ++ ' ' :: tag)
  | opening {name : List Char} (hname : P name) (r : Repetition) :
      HasForm P .opening (name ++ ' ' :: ((mark r).toList ++ "struct \x7b".toList))
  | closing {tag : List Char} (htag : IsGoTag tag) :
      HasForm P .closing ('\x7d' :: ' ' :: tag)
  | final : HasForm P .final ['\x7d']

/-- What a line does, by its first and its last character. -/
def kindOf (l : List Char) : LineKind :=
  if l.getLast? = some '\x60' then if l.head? = some '\x7d' then .closing else .column
  else if l.head? = some '\x7d' then .final
  else if l.head? = some 't' then .declaration
  else .opening

/-! ## One form for each line -/

variable {P : List Char → Prop}

theorem IsGoTag.getLast?_append {tag : List Char} (h : IsGoTag tag) (cs : List Char) :
    (cs ++ tag).getLast? = some '\x60' := by
  cases h with
  | mk _ =>
    rw [← List.append_assoc, List.getLast?_append_of_ne_nil _ (by decide)]
    rfl

theorem getLast?_append_openBrace (cs : List Char) :
    (cs ++ "struct \x7b".toList).getLast? = some '\x7b' := by
  rw [List.getLast?_append_of_ne_nil _ (by decide)]
  rfl

theorem IsExported.head?_append_ne {name : List Char} (h : IsExported name) {c : Char}
    (hc : c.isUpper = false) (cs : List Char) : (name ++ cs).head? ≠ some c := by
  obtain ⟨d, hd, hupper⟩ := h.upper
  obtain ⟨ds, rfl⟩ := List.head?_eq_some_iff.mp hd
  rw [List.cons_append, List.head?_cons]
  intro heq
  rw [Option.some.inj heq, hc] at hupper
  exact absurd hupper Bool.false_ne_true

/-- A line that starts with a name starts with a space or with an upper-case letter. -/
theorem head?_name_append {name : List Char} (h : IsName name) (cs : List Char) :
    (name ++ ' ' :: cs).head? ≠ some '\x7d' ∧ (name ++ ' ' :: cs).head? ≠ some 't' := by
  rcases h with rfl | h
  · exact ⟨by simp, by simp⟩
  · exact ⟨h.head?_append_ne (by decide) _, h.head?_append_ne (by decide) _⟩

/-- The character that a line ends in. -/
def LineKind.last : LineKind → Char
  | .column => '\x60'
  | .closing => '\x60'
  | .declaration => '\x7b'
  | .opening => '\x7b'
  | .final => '\x7d'

theorem HasForm.getLast?_eq {k : LineKind} {l : List Char} (h : HasForm P k l) :
    l.getLast? = some k.last := by
  cases h with
  | @declaration name _ =>
    have hlast := getLast?_append_openBrace ("type ".toList ++ name ++ [' '])
    rwa [List.append_assoc, List.singleton_append] at hlast
  | @column name type tag _ _ htag =>
    have hlast := htag.getLast?_append (name ++ ' ' :: type ++ [' '])
    rwa [List.append_assoc, List.singleton_append] at hlast
  | @opening name _ r =>
    have hlast := getLast?_append_openBrace (name ++ ' ' :: (mark r).toList)
    rwa [List.append_assoc, List.cons_append] at hlast
  | closing htag => exact htag.getLast?_append ['\x7d', ' ']
  | final => rfl

theorem HasForm.getLast?_ne_return {k : LineKind} {l : List Char} (h : HasForm P k l) :
    l.getLast? ≠ some '\r' := by
  rw [h.getLast?_eq]
  cases k <;> decide

/-- The first and the last character tell the forms apart. -/
theorem HasForm.kindOf_eq {k : LineKind} {l : List Char} (h : HasForm IsName k l) :
    kindOf l = k := by
  rw [kindOf, h.getLast?_eq]
  cases h with
  | declaration _ =>
    rw [List.append_assoc, if_neg (by decide), if_neg (by simp), if_pos (by simp)]
  | column h _ _ =>
    rw [List.append_assoc, List.cons_append, if_pos (by decide),
      if_neg (head?_name_append h _).1]
  | opening h _ =>
    obtain ⟨hclose, htype⟩ := head?_name_append h _
    rw [if_neg (by decide), if_neg hclose, if_neg htype]
  | closing _ => rfl
  | final => rfl

theorem HasForm.mono {Q : List Char → Prop} {k : LineKind} {l : List Char} (h : HasForm P k l)
    (hsub : ∀ cs, P cs → Q cs) : HasForm Q k l := by
  cases h with
  | declaration hname => exact .declaration (hsub _ hname)
  | column hname htype htag => exact .column (hsub _ hname) htype htag
  | opening hname r => exact .opening (hsub _ hname) r
  | closing htag => exact .closing htag
  | final => exact .final

/-! ## Nested lines -/

/-- Lines of a struct that open and close the structs inside it in pairs. -/
inductive Nested : List LineKind → Prop
  | nil : Nested []
  | column {ks : List LineKind} (h : Nested ks) : Nested (.column :: ks)
  | group {ks ls : List LineKind} (hinner : Nested ks) (hrest : Nested ls) :
      Nested (.opening :: ks ++ .closing :: ls)

theorem Nested.append {ks ls : List LineKind} (hks : Nested ks) (hls : Nested ls) :
    Nested (ks ++ ls) := by
  induction hks with
  | nil => exact hls
  | column _ ih => exact .column ih
  | group hinner _ _ ih =>
    rw [List.append_assoc]
    exact .group hinner ih

/-- Whether lines of a kind start with the name of what they are about. -/
def LineKind.isNamed : LineKind → Bool
  | .declaration => true
  | .column => true
  | .opening => true
  | .closing => false
  | .final => false

/-- What a line does, and the field node that it is about. -/
structure Role where
  kind : LineKind
  subject : FieldPath × Node

/-- A line of the form for its role, under the identifier of the node it is about. -/
def Role.Fits (r : Role) (l : List Char) : Prop :=
  HasForm (IsIdentifierOf r.subject.2.name) r.kind l

/-- The field nodes that lines of given roles name. -/
def namedNodes (rs : List Role) : List (FieldPath × Node) :=
  (rs.filter (·.kind.isNamed)).map Role.subject

/-- Lines that have forms and name the given nodes, with the structs among them nested. -/
def AreFormed (nodes : List (FieldPath × Node)) (ls : List (List Char)) : Prop :=
  ∃ rs : List Role, Nested (rs.map Role.kind) ∧ namedNodes rs = nodes ∧
    List.Forall₂ Role.Fits rs ls

variable {nodes nodes' : List (FieldPath × Node)} {x : FieldPath × Node}

theorem areFormed_nil : AreFormed [] [] := ⟨[], .nil, rfl, .nil⟩

theorem AreFormed.append {ls ms : List (List Char)} (hls : AreFormed nodes ls)
    (hms : AreFormed nodes' ms) : AreFormed (nodes ++ nodes') (ls ++ ms) := by
  obtain ⟨rs, hrs, rfl, hfits⟩ := hls
  obtain ⟨qs, hqs, rfl, hfits'⟩ := hms
  refine ⟨rs ++ qs, ?_, ?_, List.rel_append hfits hfits'⟩
  · rw [List.map_append]
    exact hrs.append hqs
  · rw [namedNodes, List.filter_append, List.map_append, namedNodes, namedNodes]

theorem areFormed_column {l : List Char} (h : Role.Fits ⟨.column, x⟩ l) : AreFormed [x] [l] :=
  ⟨[⟨.column, x⟩], .column .nil, rfl, .cons h .nil⟩

theorem AreFormed.group {l m : List Char} {ls : List (List Char)} (hls : AreFormed nodes ls)
    (hl : Role.Fits ⟨.opening, x⟩ l) (hm : Role.Fits ⟨.closing, x⟩ m) :
    AreFormed (x :: nodes) (l :: ls ++ [m]) := by
  obtain ⟨rs, hrs, rfl, hfits⟩ := hls
  refine ⟨⟨.opening, x⟩ :: rs ++ [⟨.closing, x⟩], ?_, ?_, ?_⟩
  · rw [List.cons_append, List.map_cons, List.map_append]
    exact .group hrs .nil
  · simp [namedNodes, LineKind.isNamed]
  · exact .cons hl (List.rel_append hfits (.cons hm .nil))

/-! ## Fields -/

variable {maxDepth : Nat}

theorem areFormed_fields {cs : List Node} {path : FieldPath}
    (ih : ∀ c ∈ cs, ∀ path f, field maxDepth path c = .ok f →
      AreFormed (fieldNodes path c) f.lines)
    {fs : List Field} (h : fields maxDepth path cs = .ok fs) :
    AreFormed (fieldNodesBelow path cs) (Field.listLines fs) := by
  induction cs generalizing fs with
  | nil =>
    cases h
    exact areFormed_nil
  | cons c cs ihcs =>
    obtain ⟨f, gs, hf, hgs, rfl⟩ := fields_cons_eq_ok h
    exact (ih c List.mem_cons_self _ f hf).append
      (ihcs (fun d hd => ih d (List.mem_cons_of_mem c hd)) hgs)

/-- The lines of a field have forms, and name its field nodes in order. -/
theorem areFormed_field (n : Node) : ∀ path f, field maxDepth path n = .ok f →
    AreFormed (fieldNodes path n) f.lines := by
  induction n using Node.induction with
  | step n ih =>
    intro path f hf
    have hname := isIdentifierOf_identifier n.name
    rcases (field_eq_ok hf).2 with ⟨c, hc, rfl⟩ | ⟨fs, hs, hfs, rfl⟩
    · have hcolumn := isColumn_of_column? hc
      have hplain := plainKeys_fieldTag n hcolumn.plainKeys.1 hcolumn.plainKeys.2
      rw [fieldNodes_of_not_struct (not_struct_of_column? hc)]
      exact areFormed_column (.column hname (hcolumn.isGoType.marked _) (isGoTag_chars hplain))
    · have hplain := plainKeys_fieldTag n Tag.plainKeys_empty Tag.plainKeys_empty
      rw [fieldNodes_of_struct hs]
      exact (areFormed_fields ih hfs).group (.opening hname _) (.closing (isGoTag_chars hplain))

/-! ## Declarations -/

theorem exists_of_forall₂_of_mem {α β : Type} {r : α → β → Prop} {as : List α} {bs : List β}
    (h : List.Forall₂ r as bs) {b : β} (hb : b ∈ bs) : ∃ a, r a b := by
  induction h with
  | nil => cases hb
  | cons hab _ ih =>
    rcases List.mem_cons.mp hb with rfl | hb
    · exact ⟨_, hab⟩
    · exact ih hb

/-- The line that a declared struct starts with. -/
def firstLine (name : String) : List Char :=
  "type ".toList ++ name.toList ++ ' ' :: "struct \x7b".toList

theorem newline_not_mem_firstLine {name : String}
    (h : ∀ c ∈ name.toList, isIdentifierChar c = true) : '\n' ∉ firstLine name := by
  intro hc
  rcases List.mem_append.mp hc with hc | hc
  · rcases List.mem_append.mp hc with hc | hc
    · exact absurd hc (by decide)
    · exact absurd (h _ hc) (by decide)
  · exact absurd hc (by decide)

theorem AreFormed.getLast?_ne_return {ls : List (List Char)} (h : AreFormed nodes ls) :
    ∀ l ∈ ls, l.getLast? ≠ some '\r' := by
  intro l hl
  obtain ⟨rs, -, -, hfits⟩ := h
  obtain ⟨r, hr⟩ := exists_of_forall₂_of_mem hfits hl
  exact HasForm.getLast?_ne_return hr

/-- The text of a declared struct is cut into its first line, the lines of its fields, and a closing
brace. -/
theorem lines_struct {name : String} {fs : List Field}
    (hname : ∀ c ∈ name.toList, isIdentifierChar c = true)
    (hheads : ∀ head ∈ Field.listHeads fs, IsHead head)
    (hfirst : HasForm P .declaration (firstLine name))
    (hlines : AreFormed nodes (Field.listLines fs)) :
    Text.lines (Declaration.mk name (.struct fs)).text.toList =
      firstLine name :: Field.listLines fs ++ [['\x7d']] := by
  have hline : ∀ l ∈ firstLine name :: Field.listLines fs, IsLine l := by
    rw [List.forall_mem_cons]
    constructor
    · exact ⟨newline_not_mem_firstLine hname, hfirst.getLast?_ne_return⟩
    · intro l hl
      exact ⟨newline_not_mem_listLines hheads l hl, hlines.getLast?_ne_return l hl⟩
  rw [Declaration.text, String.toList_ofList, Declaration.chars_eq]
  show Text.lines (unlines (firstLine name :: Field.listLines fs) ++ ['\x7d']) = _
  rw [lines_unlines_append hline, lines_eq_singleton (by decide) (by decide)]

/-- A declared struct has lines of the five forms: one that starts it, then lines in which nested
structs are opened and closed in pairs, and a brace.  The lines with a name stand for the field
nodes of the tree one by one, and every line has one form only. -/
theorem hasForm_lines_text {root : Node} {cs : List Node} {d : Declaration}
    (hroot : root.shape (.root (identifier root.name)) = .ok (.struct cs))
    (h : declaration maxDepth root = .ok d) :
    (∃ rs, Nested (rs.map Role.kind) ∧
      (.root (identifier root.name), root) :: namedNodes rs = treeNodes root ∧
      List.Forall₂ Role.Fits
        (⟨.declaration, .root (identifier root.name), root⟩ :: rs ++
          [⟨.final, .root (identifier root.name), root⟩])
        (Text.lines d.text.toList)) ∧
      ∀ l ∈ Text.lines d.text.toList, ∃! k, HasForm IsName k l := by
  obtain ⟨b, hb, hd⟩ := bind_eq_ok_iff.mp h
  cases hd
  rcases body_eq_ok hb with ⟨c, hc, -⟩ | ⟨fs, hs, hfs, rfl⟩
  · rw [column?_of_struct hroot] at hc
    cases hc
  · have hname := isIdentifierOf_identifier root.name
    have hlines := areFormed_fields (fun c _ => areFormed_field c) hfs
    rw [treeNodes, fieldNodes_of_struct hs,
      lines_struct isIdentifierChar_of_mem_identifier (isHead_of_fields hfs) (.declaration hname)
        hlines]
    obtain ⟨rs, hrs, hnodes, hfits⟩ := hlines
    have hfits : List.Forall₂ Role.Fits
        (⟨.declaration, .root (identifier root.name), root⟩ :: rs ++
          [⟨.final, .root (identifier root.name), root⟩])
        (firstLine (identifier root.name) :: Field.listLines fs ++ [['\x7d']]) :=
      .cons (.declaration hname) (List.rel_append hfits (.cons .final .nil))
    refine ⟨⟨rs, hrs, by rw [hnodes], hfits⟩, fun l hl => ?_⟩
    obtain ⟨r, hr⟩ := exists_of_forall₂_of_mem hfits hl
    have hform : HasForm IsName r.kind l := HasForm.mono hr fun _ => IsIdentifierOf.isName
    refine ⟨r.kind, hform, fun k hk => ?_⟩
    rw [← hk.kindOf_eq, ← hform.kindOf_eq]

theorem hasForm_lines_oddlyNamed : ∃ d,
    oddlyNamedSchema.shape (.root (identifier oddlyNamedSchema.name)) =
      .ok (.struct oddlyNamedSchema.children) ∧
    declaration 2 oddlyNamedSchema = .ok d ∧
    (∃ rs, Nested (rs.map Role.kind) ∧
      (.root (identifier oddlyNamedSchema.name), oddlyNamedSchema) :: namedNodes rs =
        treeNodes oddlyNamedSchema ∧
      List.Forall₂ Role.Fits
        (⟨.declaration, .root (identifier oddlyNamedSchema.name), oddlyNamedSchema⟩ :: rs ++
          [⟨.final, .root (identifier oddlyNamedSchema.name), oddlyNamedSchema⟩])
        (Text.lines d.text.toList)) ∧
    ∀ l ∈ Text.lines d.text.toList, ∃! k, HasForm IsName k l :=
  ⟨_, rfl, rfl, @hasForm_lines_text 2 oddlyNamedSchema _ _ rfl rfl⟩

/-- A line under exported names does not start with a space. -/
theorem HasForm.head?_ne_space {k : LineKind} {l : List Char} (h : HasForm IsExported k l) :
    l.head? ≠ some ' ' := by
  cases h with
  | declaration _ => simp
  | column hname _ _ =>
    rw [List.append_assoc]
    exact hname.head?_append_ne (by decide) _
  | opening hname _ => exact hname.head?_append_ne (by decide) _
  | closing _ => simp
  | final => simp

/-- A schema with a column of the empty name. -/
def namelessSchema : Node :=
  { name := "row", children := [{ name := "", physicalCode := some 1 }] }

/-- The empty name has an empty identifier, which is not exported: the line of its column starts
with a space. -/
theorem exists_line_namelessSchema : ∃ d,
    namelessSchema.shape (.root (identifier namelessSchema.name)) =
      .ok (.struct namelessSchema.children) ∧
    declaration 1 namelessSchema = .ok d ∧
    ∃ l ∈ Text.lines d.text.toList, ∀ k, ¬HasForm IsExported k l := by
  refine ⟨_, rfl, rfl,
    " int32 \x60parquet:\"name=, type=INT32, repetitiontype=REQUIRED\"\x60".toList, ?_, ?_⟩
  · decide
  · exact fun k hk => hk.head?_ne_space (by decide)

end ParquetStruct.Struct
