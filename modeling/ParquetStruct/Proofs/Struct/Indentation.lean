/-
# ParquetStruct.Proofs.Struct.Indentation — the indented layout of a declaration.

Each line of a declaration stands inside a number of structs, and is laid out behind that many tabs:
the line that opens a struct and the line that closes it at the depth of the field, the lines
between them one deeper.  The loop's counter of open structs is therefore never asked to go below
zero and ends at zero.  No line gets white space at its end, as every line ends in a brace, a type
or a tag.
-/
import ParquetStruct.Proofs.Struct.Loop
import ParquetStruct.Proofs.Struct.Grammar

namespace ParquetStruct.Struct

open Text

/-! ## Lines and the structs around them -/

mutual

/-- The lines of a field, each with the number of structs open around it, where so many are open
around the field. -/
def Field.nestedLines (depth : Nat) : Field → List (Nat × List Char)
  | .column name r type tag => [(depth, columnLine name r type tag)]
  | .group name r fields tag =>
    (depth, openingLine name r) ::
      Field.listNestedLines (depth + 1) fields ++ [(depth, closingLine tag)]

/-- The lines of fields one after the other, each with the number of structs open around it. -/
def Field.listNestedLines (depth : Nat) : List Field → List (Nat × List Char)
  | [] => []
  | f :: fs => f.nestedLines depth ++ Field.listNestedLines depth fs

end

/-- The lines of a declaration, each with the number of structs open around it. -/
def Declaration.nestedLines (d : Declaration) : List (Nat × List Char) :=
  match d.body with
  | .column _ => [(0, d.lastLine)]
  | .struct fields =>
    (0, firstLine d.name) :: Field.listNestedLines 1 fields ++ [(0, ['\x7d'])]

theorem Field.listNestedLines_cons (depth : Nat) (f : Field) (fs : List Field) :
    Field.listNestedLines depth (f :: fs) =
      f.nestedLines depth ++ Field.listNestedLines depth fs := rfl

theorem Field.listNestedLines_append (depth : Nat) (fs gs : List Field) :
    Field.listNestedLines depth (fs ++ gs) =
      Field.listNestedLines depth fs ++ Field.listNestedLines depth gs := by
  induction fs with
  | nil => rfl
  | cons f fs ih =>
    rw [List.cons_append, listNestedLines_cons, ih, listNestedLines_cons, List.append_assoc]

theorem Field.map_snd_listNestedLines {fs : List Field}
    (ih : ∀ f ∈ fs, ∀ depth, (f.nestedLines depth).map Prod.snd = f.lines) (depth : Nat) :
    (Field.listNestedLines depth fs).map Prod.snd = Field.listLines fs := by
  induction fs with
  | nil => rfl
  | cons f fs ihfs =>
    rw [listNestedLines_cons, List.map_append, ih f List.mem_cons_self,
      ihfs fun g hg => ih g (List.mem_cons_of_mem f hg), listLines_cons]

theorem Field.map_snd_nestedLines (f : Field) :
    ∀ depth, (f.nestedLines depth).map Prod.snd = f.lines := by
  induction f using Field.induction with
  | column => exact fun _ => rfl
  | group name r fields tag ih =>
    intro depth
    rw [nestedLines, List.map_append, List.map_cons, map_snd_listNestedLines ih]
    rfl

/-- The nested lines of a declaration are its lines. -/
theorem Declaration.map_snd_nestedLines (d : Declaration) :
    d.nestedLines.map Prod.snd = d.leadingLines ++ [d.lastLine] := by
  unfold nestedLines leadingLines lastLine
  cases d.body with
  | column => rfl
  | struct fields =>
    dsimp only
    rw [List.map_append, List.map_cons,
      Field.map_snd_listNestedLines fun f _ => f.map_snd_nestedLines]
    rfl

/-! ## Tabs -/

/-- The number of tabs that a line starts with. -/
def leadingTabs (l : List Char) : Nat := (l.takeWhile (· == '\t')).length

/-- A laid-out line that starts with so many tabs and does not end in white space. -/
structure IsPlaced (depth : Nat) (laid : List Char) : Prop where
  tabs : leadingTabs laid = depth
  last : ∀ c, laid.getLast? = some c → isBlank c = false

/-- Tabs are put before a line that starts and ends with a visible character. -/
theorem isPlaced_indentLine (depth : Nat) {l : List Char} (hne : l ≠ [])
    (hfirst : ∀ c, l.head? = some c → isBlank c = false)
    (hlast : ∀ c, l.getLast? = some c → isBlank c = false) :
    IsPlaced depth (indentLine depth l) := by
  constructor
  · obtain ⟨d, ds, rfl⟩ := List.exists_cons_of_ne_nil hne
    have hd : ¬(d == '\t') = true := by
      rw [beq_iff_eq]
      rintro rfl
      exact absurd (hfirst _ rfl) (by decide)
    rw [leadingTabs, indentLine, List.takeWhile_append_of_pos (by simp),
      List.takeWhile_cons_of_neg (p := (· == '\t')) hd, List.append_nil, List.length_replicate]
  · rw [indentLine, List.getLast?_append_of_ne_nil _ hne]
    exact hlast

theorem Rendered.isPlaced {l : List Char} (h : Rendered l) (depth : Nat) :
    IsPlaced depth (indentLine depth l) :=
  isPlaced_indentLine depth h.isCompactLine.ne_nil h.isCompactLine.first h.isCompactLine.last

/-- A name behind tabs, up to a visible character at the end of the line. -/
theorem isPlaced_name (depth : Nat) {w : List Char} (hw : IsWord w) {cs : List Char} {c : Char}
    (hlast : (w ++ cs).getLast? = some c) (hc : isBlank c = false) :
    IsPlaced depth (indentLine depth (w ++ cs)) :=
  isPlaced_indentLine depth (List.append_ne_nil_of_left_ne_nil hw.ne_nil cs) (head?_word hw cs)
    (not_isBlank_of_getLast? hlast hc)

theorem IsColumnAt.isPlaced {depth w t : Nat} {f : Field} {laid : List Char} (hf : f.IsNamed)
    (h : IsColumnAt depth w t f laid) : IsPlaced depth laid := by
  cases h with
  | @mk name r type tag j k _ _ =>
    have hhead := Field.isNamed_column.mp hf
    have hline : indentLine depth (name.toList ++ spaces j) ++
        ((mark r).toList ++ type.text.toList) ++ spaces k ++ tag.chars =
        indentLine depth (name.toList ++ (spaces j ++ ((mark r).toList ++ type.text.toList) ++
          spaces k ++ tag.chars)) := by
      simp only [indentLine, List.append_assoc]
    rw [hline]
    refine isPlaced_name depth hhead.isWord (c := '\x60') ?_ (by decide)
    rw [← List.append_assoc]
    exact getLast?_tagText (isTagText_chars hhead.tag) _

theorem IsOpeningAt.isPlaced {depth w : Nat} {f : Field} {laid : List Char} (hf : f.IsNamed)
    (h : IsOpeningAt depth w f laid) : IsPlaced depth laid := by
  cases h with
  | @mk name r fields tag j _ =>
    have hhead := (Field.isNamed_group.mp hf).1
    have hline : indentLine depth (name.toList ++ spaces j) ++
        ((mark r).toList ++ "struct \x7b".toList) =
        indentLine depth
          (name.toList ++ (spaces j ++ (mark r).toList ++ "struct \x7b".toList)) := by
      simp only [indentLine, List.append_assoc]
    rw [hline]
    refine isPlaced_name depth hhead.isWord (c := '\x7b') ?_ (by decide)
    rw [← List.append_assoc]
    exact getLast?_append_openBrace _

theorem forall₂_isPlaced_columns {depth w t : Nat} {cols : List Field} {laid : List (List Char)}
    (hnamed : ∀ f ∈ cols, f.IsNamed) (h : List.Forall₂ (IsColumnAt depth w t) cols laid) :
    List.Forall₂ (fun x l => IsPlaced x.1 l) (Field.listNestedLines depth cols) laid := by
  induction h with
  | nil => exact .nil
  | @cons f l fs ls hf _ ih =>
    rw [List.forall_mem_cons] at hnamed
    cases hf with
    | mk htype htag => exact .cons (IsColumnAt.isPlaced hnamed.1 (.mk htype htag)) (ih hnamed.2)

/-- Laid-out fields have a line for each of theirs, behind as many tabs as there are structs
open. -/
theorem AreLaidOut.forall₂_isPlaced {depth : Nat} {fs : List Field} {laid : List (List Char)}
    (h : AreLaidOut depth fs laid) (hnamed : ∀ f ∈ fs, f.IsNamed) :
    List.Forall₂ (fun x l => IsPlaced x.1 l) (Field.listNestedLines depth fs) laid := by
  induction h with
  | columns hcols => exact forall₂_isPlaced_columns hnamed hcols
  | @group depth cols name r fields tag rest laid opening inner outer hcols hopening _ _ ihinner
      ihrest =>
    rw [List.forall_mem_append, List.forall_mem_cons] at hnamed
    obtain ⟨hnamedCols, hgroup, hnamedRest⟩ := hnamed
    obtain ⟨hhead, hfields⟩ := Field.isNamed_group.mp hgroup
    have hclosing : Rendered (closingLine tag) := .closing (isTagText_chars hhead.tag)
    rw [Field.listNestedLines_append, Field.listNestedLines_cons, Field.nestedLines,
      List.append_assoc, List.cons_append, List.cons_append, List.append_assoc]
    exact List.rel_append (forall₂_isPlaced_columns hnamedCols hcols)
      (.cons (hopening.isPlaced hgroup) (List.rel_append (ihinner hfields)
        (.cons (hclosing.isPlaced depth) (ihrest hnamedRest))))

/-! ## Declarations -/

/-- Outside every struct a line is laid out as it is. -/
theorem LayoutState.step_outside {l : List Char} (htrim : trim l = l)
    (hhead : l.head? ≠ some '\x7d') :
    LayoutState.step {} l = ⟨if l.getLast? == some '\x7b' then 1 else 0, [], [l]⟩ := by
  rw [step, htrim, ofLine?_zero]
  dsimp only
  rw [if_neg (mt beq_iff_eq.mp hhead)]
  rfl

theorem getLast?_columnType (t : ColumnType) : t.text.toList.getLast? ≠ some '\x7b' := by
  have hscalar (t : Scalar) : t.text.toList.getLast? ≠ some '\x7b' := by
    cases t <;> decide
  cases t with
  | scalar t => exact hscalar t
  | list r element =>
    rw [ColumnType.text, String.toList_append,
      List.getLast?_append_of_ne_nil _ (isWord_scalar element).ne_nil]
    exact hscalar element
  | map key r value =>
    rw [ColumnType.text, String.toList_append,
      List.getLast?_append_of_ne_nil _ (isWord_scalar value).ne_nil]
    exact hscalar value

/-- The lines of a declaration, laid out. -/
inductive Declaration.IsLaidOut : Declaration → List (List Char) → Prop
  | column {name : String} {type : ColumnType} :
      IsLaidOut ⟨name, .column type⟩ [Declaration.lastLine ⟨name, .column type⟩]
  | struct {name : String} {fields : List Field} {inner : List (List Char)}
      (hinner : AreLaidOut 1 fields inner) :
      IsLaidOut ⟨name, .struct fields⟩ (firstLine name :: inner ++ [['\x7d']])

/-- The layout of a declaration, given its compact lines and the lines that are laid out: there are
as many of these, each behind a tab for every struct open around it and without white space at its
end, and the sections of each struct are aligned.  The loop that lays them out always has a struct
to close, and none left open at the end. -/
structure Declaration.IsIndented (d : Declaration) (ls laid : List (List Char)) : Prop where
  lines : d.nestedLines.map Prod.snd = ls
  sameLength : laid.length = ls.length
  placed : List.Forall₂ (fun x l => IsPlaced x.1 l) d.nestedLines laid
  sections : d.IsLaidOut laid
  loop : laid = (LayoutState.run {} ls).finish
  counter : LayoutState.NeverSaturates {} ls
  closed : (LayoutState.run {} ls).depth = 0

variable {d : Declaration}

theorem Declaration.IsLaidOut.forall₂_isPlaced {laid : List (List Char)} (h : d.IsLaidOut laid)
    (hrendered : (∀ l ∈ d.leadingLines, Rendered l) ∧ Rendered d.lastLine)
    (hheads : ∀ head ∈ d.heads, IsNamedHead head) :
    List.Forall₂ (fun x l => IsPlaced x.1 l) d.nestedLines laid := by
  cases h with
  | @column name type => exact .cons (hrendered.2.isPlaced 0) .nil
  | @struct name fields inner hinner =>
    have hnamed := Field.forall_isNamed_iff.mpr hheads
    have hfirst : Rendered (firstLine name) := hrendered.1 _ List.mem_cons_self
    exact .cons (hfirst.isPlaced 0) (List.rel_append (hinner.forall₂_isPlaced hnamed)
      (.cons (hrendered.2.isPlaced 0) .nil))

theorem head?_firstLine (name : String) : (firstLine name).head? ≠ some '\x7d' := by
  show some 't' ≠ some '\x7d'
  decide

theorem LayoutState.step_firstLine {name : String} (h : Rendered (firstLine name)) :
    LayoutState.step {} (firstLine name) = ⟨1, [], [firstLine name]⟩ := by
  have hform : HasForm (fun _ => True) .declaration (firstLine name) := .declaration trivial
  rw [step_outside h.isCompactLine.trim_eq (head?_firstLine name), hform.getLast?_eq]
  rfl

/-- The loop lays a declared struct out, and never has to close a struct that is not open. -/
theorem exists_run_struct {name : String} {fields : List Field}
    (hfirst : Rendered (firstLine name)) (hnamed : ∀ f ∈ fields, f.IsNamed) :
    ∃ inner, AreLaidOut 1 fields inner ∧
      LayoutState.run {} (firstLine name :: Field.listLines fields ++ [['\x7d']]) =
        ⟨0, [], firstLine name :: inner ++ [['\x7d']]⟩ ∧
      LayoutState.NeverSaturates {} (firstLine name :: Field.listLines fields ++ [['\x7d']]) := by
  have hstep := LayoutState.step_firstLine hfirst
  obtain ⟨after, laid, hfields⟩ :=
    exists_laysOut (s := ⟨1, [], [firstLine name]⟩) hnamed Nat.one_pos rfl
  refine ⟨laid ++ alignSection 1 (after.map Field.firstParts), hfields.sections, ?_, ?_⟩
  · rw [List.cons_append, LayoutState.run_cons, hstep, LayoutState.run_append, hfields.run,
      LayoutState.run_cons, LayoutState.run_nil,
      LayoutState.step_closeBrace (by decide) (by decide)]
    simp only [List.append_assoc, List.cons_append, List.nil_append]
    rfl
  · refine ⟨fun hc => ?_, ?_⟩
    · rw [hfirst.isCompactLine.trim_eq] at hc
      exact absurd hc (head?_firstLine name)
    · show LayoutState.NeverSaturates (LayoutState.step {} (firstLine name))
        (Field.listLines fields ++ [['\x7d']])
      rw [hstep, LayoutState.neverSaturates_append, hfields.run]
      exact ⟨hfields.counter, fun _ => Nat.one_pos, trivial⟩

/-- The loop lays a declaration of a bare type out. -/
theorem run_column {name : String} {type : ColumnType} {l : List Char}
    (hl : l = "type ".toList ++ name.toList ++ ' ' :: type.text.toList) (h : Rendered l) :
    LayoutState.run {} [l] = ⟨0, [], [l]⟩ ∧ LayoutState.NeverSaturates {} [l] := by
  have hhead : l.head? ≠ some '\x7d' := by
    rw [hl]
    simp
  have hlast : l.getLast? ≠ some '\x7b' := by
    rw [hl, List.append_cons, List.getLast?_append_of_ne_nil _ (isWord_columnType type).ne_nil]
    exact getLast?_columnType type
  have htrim := h.isCompactLine.trim_eq
  constructor
  · rw [LayoutState.run_cons, LayoutState.step_outside htrim hhead,
      if_neg (mt beq_iff_eq.mp hlast), LayoutState.run_nil]
  · rw [LayoutState.NeverSaturates, htrim]
    exact ⟨fun hc => absurd hc hhead, trivial⟩

/-- The loop lays any declaration out and ends with its counter back at zero. -/
theorem exists_run_declaration
    (hrendered : (∀ l ∈ d.leadingLines, Rendered l) ∧ Rendered d.lastLine)
    (hheads : ∀ head ∈ d.heads, IsNamedHead head) :
    ∃ laid, d.IsLaidOut laid ∧
      LayoutState.run {} (d.leadingLines ++ [d.lastLine]) = ⟨0, [], laid⟩ ∧
      LayoutState.NeverSaturates {} (d.leadingLines ++ [d.lastLine]) := by
  obtain ⟨name, b⟩ := d
  cases b with
  | column type => exact ⟨_, .column, run_column rfl hrendered.2⟩
  | struct fields =>
    have hnamed := Field.forall_isNamed_iff.mpr hheads
    obtain ⟨inner, hinner, hrun⟩ :=
      exists_run_struct (hrendered.1 (firstLine name) List.mem_cons_self) hnamed
    exact ⟨_, .struct hinner, hrun⟩

/-- The pretty layout of a declaration.  It has the lines of the compact layout, each behind one tab
for each struct open around it and none with white space at its end.  The loop's counter of open
structs never has to go below zero and is zero at the end.  In every section of fields the types
start in one column and the tags in another, where the longest name and the longest type that
stands before a tag put them. -/
theorem isIndented_indent {maxDepth : Nat} {root : Node} {d : Declaration}
    (hnames : ∀ x ∈ treeNodes root, x.2.name ≠ "") (h : declaration maxDepth root = .ok d) :
    d.IsIndented (lines d.text.toList) (lines (indent d.text).toList) := by
  have hheads := isNamedHead_of_declaration hnames h
  have hrendered := Declaration.rendered (isWord_name_of_declaration hnames h)
    fun head hhead => ⟨(hheads head hhead).isWord, (hheads head hhead).tag⟩
  have hcompact : lines d.text.toList = d.leadingLines ++ [d.lastLine] := by
    rw [Declaration.text, String.toList_ofList, Declaration.chars_eq,
      lines_rendered hrendered.1 hrendered.2]
  have hlaid : lines (indent d.text).toList =
      indentLines 0 [] (d.leadingLines ++ [d.lastLine]) := by
    rw [indent, String.toList_ofList, Declaration.text, String.toList_ofList, Declaration.chars_eq,
      lines_indentChars hrendered.1 hrendered.2]
  have hloop := LayoutState.laid_append_indentLines {} (d.leadingLines ++ [d.lastLine])
  obtain ⟨laid, hsections, hrun, hcounter⟩ := exists_run_declaration hrendered hheads
  have hfinish : indentLines 0 [] (d.leadingLines ++ [d.lastLine]) = laid := by
    rw [hrun] at hloop
    simpa [LayoutState.finish, alignSection] using hloop
  have hplaced := hsections.forall₂_isPlaced hrendered hheads
  rw [hcompact, hlaid]
  refine ⟨d.map_snd_nestedLines, ?_, ?_, ?_, hloop, hcounter, ?_⟩
  · rw [hfinish, ← hplaced.length_eq, ← d.map_snd_nestedLines, List.length_map]
  · rw [hfinish]
    exact hplaced
  · rw [hfinish]
    exact hsections
  · rw [hrun]

/-- The schema of a group between columns. -/
def interleavedSchema : Node :=
  { name := "row", children := [
    { name := "a", physicalCode := some 1 },
    { name := "longer", repetitionType := some .optional, physicalCode := some 5 },
    { name := "inner", children := [{ name := "x", physicalCode := some 5 }] },
    { name := "tail", physicalCode := some 0 }] }

theorem isIndented_indent_interleaved : ∃ d, declaration 2 interleavedSchema = .ok d ∧
    (∀ x ∈ treeNodes interleavedSchema, x.2.name ≠ "") ∧
    d.IsIndented (lines d.text.toList) (lines (indent d.text).toList) := by
  have hnames : ∀ x ∈ treeNodes interleavedSchema, x.2.name ≠ "" := by decide
  exact ⟨_, rfl, hnames, @isIndented_indent 2 _ _ hnames rfl⟩

-- The name of the opening field counts for the columns before it, and its type does not.
example : indentLines 0 [] (["type Row struct \x7b", "A int32 \x60a\x60", "B *bool \x60b\x60",
      "Inner struct \x7b", "X bool \x60c\x60", "\x7d \x60d\x60", "Tail bool \x60e\x60",
      "\x7d"].map String.toList) =
    ["type Row struct \x7b", "\tA     int32 \x60a\x60", "\tB     *bool \x60b\x60",
      "\tInner struct \x7b", "\t\tX bool \x60c\x60", "\t\x7d \x60d\x60", "\tTail bool \x60e\x60",
      "\x7d"].map String.toList := by
  decide +kernel

end ParquetStruct.Struct
