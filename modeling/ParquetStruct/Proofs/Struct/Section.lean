/-
# ParquetStruct.Proofs.Struct.Section — where the columns of a section stand.

The loop reads its own lines again: the line of a column and a line that opens a struct come back
cut into the name, type and tag that they were put together from.  Names are identifiers and types
are Go, so all of these texts but the tags are ASCII; a text that is filled up to a width counted in
characters then has that width in bytes.  Two widths, the longest name and the longest type that
stands before a tag, therefore say where every type and every tag of a section starts.
-/
import ParquetStruct.Proofs.Struct.Nesting
import ParquetStruct.Proofs.Struct.Layout

namespace ParquetStruct.Struct

open Text

/-! ## Named fields -/

/-- A head with a name that is not empty. -/
structure IsNamedHead (head : String × Tag) : Prop extends IsHead head where
  ne_nil : head.1.toList ≠ []

theorem IsNamedHead.isWord {head : String × Tag} (h : IsNamedHead head) :
    IsWord head.1.toList :=
  ⟨h.ne_nil, fun c hc => isWordChar_of_isIdentifierChar (h.name c hc)⟩

/-- A field that has a name, like every field inside it. -/
def Field.IsNamed (f : Field) : Prop := ∀ head ∈ f.heads, IsNamedHead head

theorem Field.isNamed_column {name : String} {r : Repetition} {type : ColumnType} {tag : Tag} :
    (Field.column name r type tag).IsNamed ↔ IsNamedHead (name, tag) :=
  List.forall_mem_singleton

theorem Field.forall_isNamed_iff {fs : List Field} :
    (∀ f ∈ fs, f.IsNamed) ↔ ∀ head ∈ Field.listHeads fs, IsNamedHead head := by
  refine ⟨fun h head hhead => ?_, fun h f hf head hhead => ?_⟩
  · obtain ⟨f, hf, hhead⟩ := Field.mem_listHeads.mp hhead
    exact h f hf head hhead
  · exact h head (Field.mem_listHeads.mpr ⟨f, hf, hhead⟩)

theorem Field.isNamed_group {name : String} {r : Repetition} {fields : List Field} {tag : Tag} :
    (Field.group name r fields tag).IsNamed ↔
      IsNamedHead (name, tag) ∧ ∀ f ∈ fields, f.IsNamed := by
  rw [forall_isNamed_iff]
  exact List.forall_mem_cons

/-- Where no node has the empty name, the fields of a declaration have names. -/
theorem isNamedHead_of_declaration {maxDepth : Nat} {root : Node} {d : Declaration}
    (hnames : ∀ x ∈ treeNodes root, x.2.name ≠ "") (h : declaration maxDepth root = .ok d) :
    ∀ head ∈ d.heads, IsNamedHead head := by
  intro head hhead
  have hplain := (headOf_of_declaration h head hhead).isHead
  obtain ⟨⟨x, hx, hname⟩, -⟩ := headOf_of_declaration h head hhead
  exact ⟨hplain, hname ▸ toList_identifier_ne_nil (hnames x hx)⟩

theorem isWord_name_of_declaration {maxDepth : Nat} {root : Node} {d : Declaration}
    (hnames : ∀ x ∈ treeNodes root, x.2.name ≠ "") (h : declaration maxDepth root = .ok d) :
    IsWord d.name.toList := by
  obtain ⟨b, -, hd⟩ := bind_eq_ok_iff.mp h
  cases hd
  exact isWord_identifier (hnames _ (mem_fieldNodes_self _ root))

/-! ## First lines read back -/

/-- The parts of the first line of a field. -/
def Field.firstParts : Field → FieldLine
  | .column name r type tag =>
    { name := name.toList, type := (mark r).toList ++ type.text.toList, tag := tag.chars }
  | .group name r _ _ =>
    { name := name.toList, type := (mark r).toList ++ "struct \x7b".toList, opensStruct := true }

/-- Whether a field fits on one line. -/
def Field.isColumn : Field → Bool
  | .column .. => true
  | .group .. => false

theorem opensStruct_firstParts (f : Field) : f.firstParts.opensStruct = !f.isColumn := by
  cases f with
  | column => rfl
  | group => rfl

/-- A line inside a struct that starts with a name is cut after it. -/
theorem FieldLine.ofLine?_name {depth : Nat} (hdepth : 0 < depth) {name : String} {tag : Tag}
    (h : IsHead (name, tag)) (rest : List Char) :
    FieldLine.ofLine? depth (name.toList ++ ' ' :: rest) =
      if rest.getLast? == some '\x7b' then
        some { name := name.toList, type := rest, opensStruct := true }
      else
        some { name := name.toList, type := (cutTag [] rest).1, tag := (cutTag [] rest).2 } := by
  have hspace : ' ' ∉ name.toList := h.not_mem_name (by decide)
  have hin : ¬(depth = 0 || (name.toList ++ ' ' :: rest).head? == some '\x7d') = true := by
    rw [Bool.or_eq_true, decide_eq_true_eq, beq_iff_eq, not_or]
    exact ⟨by omega, head?_ne_closeBrace h rest⟩
  rw [FieldLine.ofLine?, if_neg hin, dropWhile_append_cons hspace, takeWhile_append_cons hspace]

theorem ofLine?_columnLine {depth : Nat} (hdepth : 0 < depth) {name : String} {tag : Tag}
    (h : IsHead (name, tag)) (r : Repetition) (type : ColumnType) :
    FieldLine.ofLine? depth (columnLine name r type tag) =
      some (Field.column name r type tag).firstParts := by
  have htype : ' ' ∉ (mark r).toList ++ type.text.toList := (isWord_markedType r type).not_mem rfl
  obtain ⟨ts, hts⟩ := List.head?_eq_some_iff.mp (isTagText_chars h.tag).head
  have hlast : ((mark r).toList ++ type.text.toList ++ ' ' :: tag.chars).getLast? ≠
      some '\x7b' := by
    rw [List.append_cons, getLast?_tagText (isTagText_chars h.tag)]
    decide
  have hcut : cutTag [] ((mark r).toList ++ type.text.toList ++ ' ' :: tag.chars) =
      ((mark r).toList ++ type.text.toList, tag.chars) := by
    rw [hts]
    exact cutTag_append htype [] ts
  rw [columnLine, List.append_assoc, List.cons_append, FieldLine.ofLine?_name hdepth h,
    if_neg (mt beq_iff_eq.mp hlast), hcut]
  rfl

theorem ofLine?_openingLine {depth : Nat} (hdepth : 0 < depth) {name : String} {tag : Tag}
    (h : IsHead (name, tag)) (r : Repetition) (fields : List Field) :
    FieldLine.ofLine? depth (openingLine name r) =
      some (Field.group name r fields tag).firstParts := by
  have hlast : ((mark r).toList ++ "struct \x7b".toList).getLast? = some '\x7b' := by
    rw [List.getLast?_append_of_ne_nil _ (by decide)]
    rfl
  rw [openingLine, FieldLine.ofLine?_name hdepth h, if_pos (beq_iff_eq.mpr hlast)]
  rfl

theorem ofLine?_zero (l : List Char) : FieldLine.ofLine? 0 l = none := by
  simp [FieldLine.ofLine?]

theorem ofLine?_closeBrace (depth : Nat) (cs : List Char) :
    FieldLine.ofLine? depth ('\x7d' :: cs) = none := by
  simp [FieldLine.ofLine?]

/-! ## Names and types in bytes -/

theorem isAscii_name {head : String × Tag} (h : IsHead head) : IsAscii head.1.toList :=
  fun c hc => toNat_lt_of_isIdentifierChar (h.name c hc)

theorem isAscii_mark (r : Repetition) : IsAscii (mark r).toList := by
  cases r <;> decide

theorem isAscii_scalar (t : Scalar) : IsAscii t.text.toList := by
  cases t <;> decide

theorem isAscii_columnType (t : ColumnType) : IsAscii t.text.toList := by
  cases t with
  | scalar t => exact isAscii_scalar t
  | list r element =>
    have hbrackets : IsAscii "[]".toList := by decide
    simp only [ColumnType.text, String.toList_append]
    exact (hbrackets.append (isAscii_mark r)).append (isAscii_scalar element)
  | map key r value =>
    have hmap : IsAscii "map[".toList := by decide
    have hclose : IsAscii "]".toList := by decide
    simp only [ColumnType.text, String.toList_append]
    exact (((hmap.append (isAscii_scalar key)).append hclose).append (isAscii_mark r)).append
      (isAscii_scalar value)

theorem isAscii_markedType (r : Repetition) (t : ColumnType) :
    IsAscii ((mark r).toList ++ t.text.toList) :=
  (isAscii_mark r).append (isAscii_columnType t)

/-! ## Widths -/

/-- The length in bytes of the longest of several texts. -/
def widest (texts : List (List Char)) : Nat :=
  (texts.map utf8Length).foldl max 0

theorem foldl_max_le_iff {xs : List Nat} {m w : Nat} :
    xs.foldl max m ≤ w ↔ m ≤ w ∧ ∀ x ∈ xs, x ≤ w := by
  induction xs generalizing m with
  | nil => simp
  | cons x xs ih => rw [List.foldl_cons, ih, List.forall_mem_cons, Nat.max_le, and_assoc]

/-- No text is longer than the longest, and no other width is as small. -/
theorem widest_le_iff {texts : List (List Char)} {w : Nat} :
    widest texts ≤ w ↔ ∀ cs ∈ texts, utf8Length cs ≤ w := by
  rw [widest, foldl_max_le_iff, List.forall_mem_map]
  exact and_iff_right w.zero_le

theorem utf8Length_le_widest {texts : List (List Char)} {cs : List Char} (h : cs ∈ texts) :
    utf8Length cs ≤ widest texts :=
  widest_le_iff.mp le_rfl cs h

/-- The width of the name column of fields. -/
def nameWidth (fs : List Field) : Nat := widest (fs.map (·.firstParts.name))

/-- The width of the type column of fields. -/
def typeWidth (fs : List Field) : Nat := widest (fs.map (·.firstParts.type))

/-! ## Places in a line -/

/-- So many spaces. -/
def spaces (k : Nat) : List Char := List.replicate k ' '

/-- The line of a column at a depth: its type starts where the name column ends, and its tag where
the type column ends. -/
inductive IsColumnAt (depth nameWidth typeWidth : Nat) : Field → List Char → Prop
  | mk {name : String} {r : Repetition} {type : ColumnType} {tag : Tag} {j k : Nat}
      (htype : utf8Length (indentLine depth (name.toList ++ spaces j)) = depth + nameWidth + 1)
      (htag : utf8Length (indentLine depth (name.toList ++ spaces j) ++
        ((mark r).toList ++ type.text.toList) ++ spaces k) =
          depth + nameWidth + 1 + typeWidth + 1) :
      IsColumnAt depth nameWidth typeWidth (.column name r type tag)
        (indentLine depth (name.toList ++ spaces j) ++ ((mark r).toList ++ type.text.toList) ++
          spaces k ++ tag.chars)

/-- The line that opens the struct of a group at a depth: its type starts where the name column
ends. -/
inductive IsOpeningAt (depth nameWidth : Nat) : Field → List Char → Prop
  | mk {name : String} {r : Repetition} {fields : List Field} {tag : Tag} {j : Nat}
      (htype : utf8Length (indentLine depth (name.toList ++ spaces j)) = depth + nameWidth + 1) :
      IsOpeningAt depth nameWidth (.group name r fields tag)
        (indentLine depth (name.toList ++ spaces j) ++ ((mark r).toList ++ "struct \x7b".toList))

theorem utf8Length_indentLine (depth : Nat) (l : List Char) :
    utf8Length (indentLine depth l) = depth + utf8Length l := by
  have htabs : IsAscii (List.replicate depth '\t') := isAscii_replicate (by decide) depth
  rw [indentLine, utf8Length_append, htabs.utf8Length_eq, List.length_replicate]

/-- A text filled up to a width, and the space after it. -/
theorem exists_padTo_append_space (width : Nat) (cs : List Char) :
    ∃ k, padTo width cs ++ [' '] = cs ++ spaces k := by
  refine ⟨width - cs.length + 1, ?_⟩
  rw [padTo, spaces, List.replicate_succ', List.append_assoc]

theorem not_isBlank_of_getLast? {l : List Char} {c : Char} (hlast : l.getLast? = some c)
    (hc : isBlank c = false) : ∀ d, l.getLast? = some d → isBlank d = false := by
  intro d hd
  rw [hlast, Option.some.injEq] at hd
  rw [← hd, hc]

theorem trimEnd_eq_self {l : List Char} {c : Char} (hlast : l.getLast? = some c)
    (hc : isBlank c = false) : trimEnd l = l :=
  trimEndWhere_eq_self (not_isBlank_of_getLast? hlast hc)

variable {depth : Nat}

/-- A column is put where the widths say, if its name and its type are within them. -/
theorem isColumnAt_aligned {name : String} {tag : Tag} (h : IsHead (name, tag)) {r : Repetition}
    {type : ColumnType} {w t : Nat} (hw : utf8Length name.toList ≤ w)
    (ht : utf8Length ((mark r).toList ++ type.text.toList) ≤ t) :
    IsColumnAt depth w t (.column name r type tag) (indentLine depth
      (trimEnd ((Field.column name r type tag).firstParts.aligned w t))) := by
  obtain ⟨j, hj⟩ := exists_padTo_append_space w name.toList
  obtain ⟨k, hk⟩ := exists_padTo_append_space t ((mark r).toList ++ type.text.toList)
  have hname := (isAscii_name h).utf8Length_padTo_append_space hw
  have htype := (isAscii_markedType r type).utf8Length_padTo_append_space ht
  rw [hj] at hname
  rw [hk] at htype
  have htag := isTagText_chars h.tag
  have haligned : (Field.column name r type tag).firstParts.aligned w t =
      name.toList ++ spaces j ++ ((mark r).toList ++ type.text.toList ++ spaces k) ++
        tag.chars := by
    rw [← hj, ← hk, Field.firstParts, FieldLine.aligned,
      if_neg fun hnil => htag.ne_nil (List.isEmpty_iff.mp hnil)]
    simp only [List.append_assoc, List.cons_append, List.nil_append]
  have hline : indentLine depth (trimEnd ((Field.column name r type tag).firstParts.aligned w t)) =
      indentLine depth (name.toList ++ spaces j) ++ ((mark r).toList ++ type.text.toList) ++
        spaces k ++ tag.chars := by
    rw [haligned, trimEnd_eq_self (getLast?_tagText htag _) (by decide)]
    simp only [indentLine, List.append_assoc]
  rw [hline]
  refine .mk ?_ ?_
  · rw [utf8Length_indentLine, hname, Nat.add_assoc]
  · rw [List.append_assoc, utf8Length_append, utf8Length_indentLine, hname, htype]
    omega

/-- A line that opens a struct is put where the width of the name column says. -/
theorem isOpeningAt_aligned {name : String} {tag : Tag} (h : IsHead (name, tag)) {r : Repetition}
    {fields : List Field} {w t : Nat} (hw : utf8Length name.toList ≤ w) :
    IsOpeningAt depth w (.group name r fields tag) (indentLine depth
      (trimEnd ((Field.group name r fields tag).firstParts.aligned w t))) := by
  obtain ⟨j, hj⟩ := exists_padTo_append_space w name.toList
  have hname := (isAscii_name h).utf8Length_padTo_append_space hw
  rw [hj] at hname
  have haligned : (Field.group name r fields tag).firstParts.aligned w t =
      name.toList ++ spaces j ++ ((mark r).toList ++ "struct \x7b".toList) := by
    rw [← hj, List.append_assoc]
    rfl
  have hlast : (name.toList ++ spaces j ++ ((mark r).toList ++ "struct \x7b".toList)).getLast? =
      some '\x7b' := by
    rw [← List.append_assoc, List.getLast?_append_of_ne_nil _ (by decide)]
    rfl
  have hline : indentLine depth (trimEnd ((Field.group name r fields tag).firstParts.aligned w t)) =
      indentLine depth (name.toList ++ spaces j) ++
        ((mark r).toList ++ "struct \x7b".toList) := by
    rw [haligned, trimEnd_eq_self hlast (by decide)]
    simp only [indentLine, List.append_assoc]
  rw [hline]
  refine .mk ?_
  rw [utf8Length_indentLine, hname, Nat.add_assoc]

/-! ## Sections -/

theorem alignSection_firstParts (depth : Nat) (fs : List Field) :
    alignSection depth (fs.map Field.firstParts) = fs.map fun f => indentLine depth
      (trimEnd (f.firstParts.aligned (nameWidth fs) (typeWidth (fs.filter Field.isColumn)))) := by
  have hcolumns : (fs.map Field.firstParts).filter (fun f => !f.opensStruct) =
      (fs.filter Field.isColumn).map Field.firstParts := by
    rw [List.filter_map]
    congr 1
    refine List.filter_congr fun f _ => ?_
    simp [opensStruct_firstParts]
  unfold alignSection
  rw [hcolumns]
  simp only [List.map_map, nameWidth, typeWidth, widest]
  rfl

theorem forall₂_columns {cols : List Field} (hnamed : ∀ f ∈ cols, f.IsNamed)
    (hcols : ∀ f ∈ cols, f.isColumn = true) {w t : Nat}
    (hw : ∀ f ∈ cols, utf8Length f.firstParts.name ≤ w)
    (ht : ∀ f ∈ cols, utf8Length f.firstParts.type ≤ t) :
    List.Forall₂ (IsColumnAt depth w t) cols
      (cols.map fun f => indentLine depth (trimEnd (f.firstParts.aligned w t))) := by
  rw [List.forall₂_map_right_iff, List.forall₂_same]
  intro f hf
  cases f with
  | column name r type tag =>
    have hhead := Field.isNamed_column.mp (hnamed _ hf)
    exact isColumnAt_aligned hhead.toIsHead (hw _ hf) (ht _ hf)
  | group name r fields tag => exact absurd (hcols _ hf) Bool.false_ne_true

theorem utf8Length_name_le {fs : List Field} {f : Field} (hf : f ∈ fs) :
    utf8Length f.firstParts.name ≤ nameWidth fs :=
  utf8Length_le_widest (List.mem_map_of_mem hf)

theorem utf8Length_type_le {fs : List Field} {f : Field} (hf : f ∈ fs) :
    utf8Length f.firstParts.type ≤ typeWidth fs :=
  utf8Length_le_widest (List.mem_map_of_mem hf)

/-- A section of columns that no struct follows. -/
theorem alignSection_columns {cols : List Field} (hnamed : ∀ f ∈ cols, f.IsNamed)
    (hcols : ∀ f ∈ cols, f.isColumn = true) :
    List.Forall₂ (IsColumnAt depth (nameWidth cols) (typeWidth cols)) cols
      (alignSection depth (cols.map Field.firstParts)) := by
  rw [alignSection_firstParts, List.filter_eq_self.mpr hcols]
  exact forall₂_columns hnamed hcols (fun _ => utf8Length_name_le) (fun _ => utf8Length_type_le)

/-- A section of columns and a group: the name of the group counts for the names of the columns, its
type does not count for their types. -/
theorem alignSection_group {cols : List Field} (hnamed : ∀ f ∈ cols, f.IsNamed)
    (hcols : ∀ f ∈ cols, f.isColumn = true) {name : String} {tag : Tag}
    (hhead : IsHead (name, tag)) (depth : Nat) (r : Repetition) (fields : List Field) :
    ∃ laid opening,
      alignSection depth ((cols ++ [Field.group name r fields tag]).map Field.firstParts) =
        laid ++ [opening] ∧
      List.Forall₂ (IsColumnAt depth (nameWidth (cols ++ [.group name r fields tag]))
        (typeWidth cols)) cols laid ∧
      IsOpeningAt depth (nameWidth (cols ++ [.group name r fields tag]))
        (.group name r fields tag) opening := by
  have hfilter : (cols ++ [Field.group name r fields tag]).filter Field.isColumn = cols := by
    rw [List.filter_append, List.filter_eq_self.mpr hcols,
      show [Field.group name r fields tag].filter Field.isColumn = [] from rfl, List.append_nil]
  have hgroup := utf8Length_name_le
    (List.mem_append_right cols (List.mem_singleton_self (Field.group name r fields tag)))
  rw [alignSection_firstParts, hfilter, List.map_append, List.map_singleton]
  refine ⟨_, _, rfl, forall₂_columns hnamed hcols (fun f hf => ?_) (fun _ => utf8Length_type_le),
    isOpeningAt_aligned hhead hgroup⟩
  exact utf8Length_name_le (List.mem_append_left _ hf)

end ParquetStruct.Struct
