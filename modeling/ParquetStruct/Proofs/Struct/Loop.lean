/-
# ParquetStruct.Proofs.Struct.Loop — the layout loop on the lines of fields.

The layout loop goes through compact text with three things in hand: the lines laid out so far, the
fields that wait for the end of their section, and a counter of open structs.  One step is settled
for each form of line.  Over the lines of the fields of a struct the counter comes back to where it
was, and what waited before them joins the first section; the fields inside a group are read with
nothing waiting and the counter one higher, so the run is settled by induction over the fields.
-/
import ParquetStruct.Proofs.Struct.Section

namespace ParquetStruct.Struct

open Text

/-! ## The loop -/

/-- What the layout loop holds between two lines. -/
structure LayoutState where
  /-- How many structs are open. -/
  depth : Nat := 0
  /-- The fields that wait for the end of their section. -/
  waiting : List FieldLine := []
  /-- The lines laid out so far. -/
  laid : List (List Char) := []

/-- Reads one line. -/
def LayoutState.step (s : LayoutState) (raw : List Char) : LayoutState :=
  let line := trim raw
  match FieldLine.ofLine? s.depth line with
  | some f =>
    if f.opensStruct then
      ⟨s.depth + 1, [], s.laid ++ alignSection s.depth (s.waiting ++ [f])⟩
    else
      ⟨s.depth, s.waiting ++ [f], s.laid⟩
  | none =>
    let outer := if line.head? == some '\x7d' then s.depth - 1 else s.depth
    let inner := if line.getLast? == some '\x7b' then outer + 1 else outer
    ⟨inner, [], s.laid ++ alignSection s.depth s.waiting ++ [indentLine outer line]⟩

/-- Reads lines one after the other. -/
def LayoutState.run (s : LayoutState) (ls : List (List Char)) : LayoutState :=
  ls.foldl step s

/-- The lines laid out once the text is at its end. -/
def LayoutState.finish (s : LayoutState) : List (List Char) :=
  s.laid ++ alignSection s.depth s.waiting

@[simp] theorem LayoutState.run_nil (s : LayoutState) : s.run [] = s := rfl

@[simp] theorem LayoutState.run_cons (s : LayoutState) (l : List Char) (ls : List (List Char)) :
    s.run (l :: ls) = (s.step l).run ls := rfl

theorem LayoutState.run_append (s : LayoutState) (ls ms : List (List Char)) :
    s.run (ls ++ ms) = (s.run ls).run ms :=
  List.foldl_append

/-- The layout of lines is what the loop has laid out when it is through with them. -/
theorem LayoutState.laid_append_indentLines (s : LayoutState) (ls : List (List Char)) :
    s.laid ++ indentLines s.depth s.waiting ls = (s.run ls).finish := by
  induction ls generalizing s with
  | nil => rfl
  | cons l ls ih =>
    rw [run_cons, ← ih, step, indentLines]
    cases FieldLine.ofLine? s.depth (trim l) with
    | some f =>
      dsimp only
      split
      · rw [List.append_assoc]
      · rfl
    | none => simp only [List.append_assoc, List.singleton_append]

/-- Whenever a line that starts with a closing brace is read, a struct is open. -/
def LayoutState.NeverSaturates (s : LayoutState) : List (List Char) → Prop
  | [] => True
  | l :: ls => ((trim l).head? = some '\x7d' → 0 < s.depth) ∧ (s.step l).NeverSaturates ls

theorem LayoutState.neverSaturates_append {s : LayoutState} {ls ms : List (List Char)} :
    s.NeverSaturates (ls ++ ms) ↔ s.NeverSaturates ls ∧ (s.run ls).NeverSaturates ms := by
  induction ls generalizing s with
  | nil => exact (and_iff_right trivial).symm
  | cons l ls ih =>
    rw [List.cons_append, NeverSaturates, NeverSaturates, ih, run_cons, and_assoc]

/-! ## One step for each form of line -/

variable {s : LayoutState}

theorem trim_columnLine {name : String} {tag : Tag} (h : IsNamedHead (name, tag)) (r : Repetition)
    (type : ColumnType) : trim (columnLine name r type tag) = columnLine name r type tag :=
  (Rendered.column h.isWord (isWord_markedType r type)
    (isTagText_chars h.tag)).isCompactLine.trim_eq

theorem trim_openingLine {name : String} {tag : Tag} (h : IsNamedHead (name, tag))
    (r : Repetition) : trim (openingLine name r) = openingLine name r :=
  (rendered_openingLine h.isWord r).isCompactLine.trim_eq

theorem trim_closingLine {tag : Tag} (h : tag.PlainKeys) :
    trim (closingLine tag) = closingLine tag :=
  (Rendered.closing (isTagText_chars h)).isCompactLine.trim_eq

/-- A column waits for the end of its section. -/
theorem LayoutState.step_columnLine (hdepth : 0 < s.depth) {name : String} {tag : Tag}
    (h : IsNamedHead (name, tag)) (r : Repetition) (type : ColumnType) :
    s.step (columnLine name r type tag) =
      ⟨s.depth, s.waiting ++ [(Field.column name r type tag).firstParts], s.laid⟩ := by
  rw [step, trim_columnLine h, ofLine?_columnLine hdepth h.toIsHead]
  rfl

/-- A line that opens a struct ends the section of the fields before it. -/
theorem LayoutState.step_openingLine (hdepth : 0 < s.depth) {name : String} {tag : Tag}
    (h : IsNamedHead (name, tag)) (r : Repetition) (fields : List Field) :
    s.step (openingLine name r) =
      ⟨s.depth + 1, [], s.laid ++ alignSection s.depth
        (s.waiting ++ [(Field.group name r fields tag).firstParts])⟩ := by
  rw [step, trim_openingLine h, ofLine?_openingLine hdepth h.toIsHead r fields]
  rfl

/-- A line that closes a struct and opens none stands one level further out than the fields before
it. -/
theorem LayoutState.step_closeBrace {cs : List Char} (htrim : trim ('\x7d' :: cs) = '\x7d' :: cs)
    (hlast : ('\x7d' :: cs).getLast? ≠ some '\x7b') :
    s.step ('\x7d' :: cs) = ⟨s.depth - 1, [],
      s.laid ++ alignSection s.depth s.waiting ++ [indentLine (s.depth - 1) ('\x7d' :: cs)]⟩ := by
  rw [step, htrim, ofLine?_closeBrace]
  dsimp only
  rw [if_neg (mt beq_iff_eq.mp hlast)]
  rfl

theorem LayoutState.step_closingLine {tag : Tag} (h : tag.PlainKeys) :
    s.step (closingLine tag) = ⟨s.depth - 1, [],
      s.laid ++ alignSection s.depth s.waiting ++
        [indentLine (s.depth - 1) (closingLine tag)]⟩ := by
  have hlast : (closingLine tag).getLast? = some '\x60' :=
    getLast?_tagText (isTagText_chars h) ['\x7d', ' ']
  refine step_closeBrace (trim_closingLine h) ?_
  show (closingLine tag).getLast? ≠ some '\x7b'
  rw [hlast]
  decide

/-! ## Sections one after the other -/

/-- The lines of the fields of a struct at a depth, laid out: each run of columns is a section by
itself, together with the group after it if there is one, and the fields of that group stand one
level deeper. -/
inductive AreLaidOut : Nat → List Field → List (List Char) → Prop
  | columns {depth : Nat} {cols : List Field} {laid : List (List Char)}
      (hcols : List.Forall₂ (IsColumnAt depth (nameWidth cols) (typeWidth cols)) cols laid) :
      AreLaidOut depth cols laid
  | group {depth : Nat} {cols : List Field} {name : String} {r : Repetition} {fields : List Field}
      {tag : Tag} {rest : List Field} {laid : List (List Char)} {opening : List Char}
      {inner outer : List (List Char)}
      (hcols : List.Forall₂ (IsColumnAt depth (nameWidth (cols ++ [.group name r fields tag]))
        (typeWidth cols)) cols laid)
      (hopening : IsOpeningAt depth (nameWidth (cols ++ [.group name r fields tag]))
        (.group name r fields tag) opening)
      (hinner : AreLaidOut (depth + 1) fields inner) (hrest : AreLaidOut depth rest outer) :
      AreLaidOut depth (cols ++ .group name r fields tag :: rest)
        (laid ++ opening :: inner ++ indentLine depth (closingLine tag) :: outer)

/-- The fields inside a field. -/
def Field.inner : Field → List Field
  | .column .. => []
  | .group _ _ fields _ => fields

/-- What the loop does on the lines of fields, with other fields waiting before them: the counter
ends where it started, and what is laid out and what waits at the end are the sections of all these
fields. -/
structure LaysOut (s : LayoutState) (before fs after : List Field) (laid : List (List Char)) :
    Prop where
  run : s.run (Field.listLines fs) = ⟨s.depth, after.map Field.firstParts, s.laid ++ laid⟩
  sections : AreLaidOut s.depth (before ++ fs)
    (laid ++ alignSection s.depth (after.map Field.firstParts))
  counter : s.NeverSaturates (Field.listLines fs)

theorem laysOut_nil {before : List Field} (hwaiting : s.waiting = before.map Field.firstParts)
    (hnamed : ∀ f ∈ before, f.IsNamed) (hcols : ∀ f ∈ before, f.isColumn = true) :
    LaysOut s before [] before [] where
  run := by rw [Field.listLines_nil, LayoutState.run_nil, List.append_nil, ← hwaiting]
  sections := by
    rw [List.append_nil]
    exact .columns (alignSection_columns hnamed hcols)
  counter := trivial

/-- A column joins the fields that wait. -/
theorem LaysOut.column (hdepth : 0 < s.depth) {name : String} {r : Repetition} {type : ColumnType}
    {tag : Tag} (h : IsNamedHead (name, tag)) {before fs after : List Field}
    {laid : List (List Char)}
    (hrest : LaysOut (s.step (columnLine name r type tag)) (before ++ [.column name r type tag]) fs
      after laid) :
    LaysOut s before (.column name r type tag :: fs) after laid := by
  have hstep := LayoutState.step_columnLine hdepth h r type
  have hlines : Field.listLines (.column name r type tag :: fs) =
      columnLine name r type tag :: Field.listLines fs := rfl
  have hhead : (trim (columnLine name r type tag)).head? ≠ some '\x7d' := by
    rw [trim_columnLine h, columnLine, List.append_assoc]
    exact head?_ne_closeBrace h.toIsHead _
  refine ⟨?_, ?_, ?_⟩
  · rw [hlines, LayoutState.run_cons, hrest.run, hstep]
  · have hsections := hrest.sections
    rw [hstep, List.append_assoc, List.singleton_append] at hsections
    exact hsections
  · rw [hlines]
    exact ⟨fun hc => absurd hc hhead, hrest.counter⟩

theorem lines_group (name : String) (r : Repetition) (fields : List Field) (tag : Tag) :
    (Field.group name r fields tag).lines =
      openingLine name r :: (Field.listLines fields ++ [closingLine tag]) := rfl

/-- The state that the loop is in after a group: its section is laid out with the lines inside it,
and nothing waits. -/
theorem run_group (hdepth : 0 < s.depth) {name : String} {r : Repetition} {fields : List Field}
    {tag : Tag} (h : IsNamedHead (name, tag)) {before after : List Field}
    (hwaiting : s.waiting = before.map Field.firstParts) {inner : List (List Char)}
    (hinner : LaysOut (s.step (openingLine name r)) [] fields after inner) :
    s.run (Field.group name r fields tag).lines = ⟨s.depth, [], s.laid ++
      (alignSection s.depth ((before ++ [Field.group name r fields tag]).map Field.firstParts) ++
        (inner ++ alignSection (s.depth + 1) (after.map Field.firstParts)) ++
        [indentLine s.depth (closingLine tag)])⟩ := by
  have hstep := LayoutState.step_openingLine hdepth h r fields
  rw [lines_group, LayoutState.run_cons, LayoutState.run_append, hinner.run, hstep,
    LayoutState.run_cons, LayoutState.run_nil, LayoutState.step_closingLine h.tag, hwaiting]
  simp only [Nat.add_sub_cancel, List.map_append, List.map_singleton, List.append_assoc]

theorem neverSaturates_group {name : String} {r : Repetition} {fields : List Field}
    {tag : Tag} (h : IsNamedHead (name, tag)) (hdepth : 0 < s.depth) {after : List Field}
    {inner : List (List Char)}
    (hinner : LaysOut (s.step (openingLine name r)) [] fields after inner) :
    s.NeverSaturates (Field.group name r fields tag).lines := by
  have hhead : (trim (openingLine name r)).head? ≠ some '\x7d' := by
    rw [trim_openingLine h, openingLine]
    exact head?_ne_closeBrace h.toIsHead _
  have hstep := LayoutState.step_openingLine hdepth h r fields
  rw [lines_group]
  refine ⟨fun hc => absurd hc hhead, LayoutState.neverSaturates_append.mpr ⟨hinner.counter, ?_⟩⟩
  -- The counter is one up again where the struct is closed.
  rw [hinner.run, hstep]
  exact ⟨fun _ => Nat.succ_pos _, trivial⟩

/-- A group ends the section of the fields that wait, and the fields after it start with none
waiting. -/
theorem exists_laysOut_group (hdepth : 0 < s.depth) {name : String} {r : Repetition}
    {fields : List Field} {tag : Tag} (h : IsNamedHead (name, tag)) {before : List Field}
    (hwaiting : s.waiting = before.map Field.firstParts) (hnamed : ∀ f ∈ before, f.IsNamed)
    (hcols : ∀ f ∈ before, f.isColumn = true)
    (ih : ∀ t : LayoutState, 0 < t.depth → t.waiting = [] → ∃ after inner,
      LaysOut t [] fields after inner)
    {fs : List Field}
    (ihfs : ∀ t : LayoutState, 0 < t.depth → t.waiting = [] → ∃ after outer,
      LaysOut t [] fs after outer) :
    ∃ after laid, LaysOut s before (.group name r fields tag :: fs) after laid := by
  have hstep := LayoutState.step_openingLine hdepth h r fields
  obtain ⟨afterInner, inner, hinner⟩ := ih (s.step (openingLine name r))
    (by rw [hstep]; exact Nat.succ_pos _) (by rw [hstep])
  obtain ⟨laid, opening, halign, haligned, hopening⟩ :=
    alignSection_group hnamed hcols h.toIsHead s.depth r fields
  have hrun := run_group hdepth h hwaiting hinner
  obtain ⟨after, outer, houter⟩ := ihfs (s.run (Field.group name r fields tag).lines)
    (by rw [hrun]; exact hdepth) (by rw [hrun])
  have hsections : AreLaidOut (s.depth + 1) fields
      (inner ++ alignSection (s.depth + 1) (afterInner.map Field.firstParts)) := by
    have hsections := hinner.sections
    rwa [hstep] at hsections
  have hrest : AreLaidOut s.depth fs
      (outer ++ alignSection s.depth (after.map Field.firstParts)) := by
    have hrest := houter.sections
    rwa [hrun] at hrest
  refine ⟨after, laid ++ opening :: (inner ++
    alignSection (s.depth + 1) (afterInner.map Field.firstParts)) ++
      indentLine s.depth (closingLine tag) :: outer, ?_, ?_, ?_⟩
  · rw [Field.listLines_cons, LayoutState.run_append, houter.run, hrun, halign]
    simp only [List.append_assoc, List.cons_append, List.nil_append]
  · have hall := AreLaidOut.group haligned hopening hsections hrest
    simpa only [List.append_assoc, List.cons_append, List.nil_append] using hall
  · rw [Field.listLines_cons]
    exact LayoutState.neverSaturates_append.mpr
      ⟨neverSaturates_group h hdepth hinner, houter.counter⟩

/-- The loop lays the fields of a struct out if it does so for the fields inside each of them. -/
theorem exists_laysOut_of_inner {fs : List Field} (hfs : ∀ f ∈ fs, f.IsNamed)
    (ih : ∀ f ∈ fs, f.IsNamed → ∀ t : LayoutState, 0 < t.depth → t.waiting = [] →
      ∃ after inner, LaysOut t [] f.inner after inner)
    (s : LayoutState) (hdepth : 0 < s.depth) (before : List Field)
    (hwaiting : s.waiting = before.map Field.firstParts) (hnamed : ∀ f ∈ before, f.IsNamed)
    (hcols : ∀ f ∈ before, f.isColumn = true) :
    ∃ after laid, LaysOut s before fs after laid := by
  -- A column leaves more fields waiting, a group another state, so both are arbitrary.
  induction fs generalizing s before with
  | nil => exact ⟨before, [], laysOut_nil hwaiting hnamed hcols⟩
  | cons f fs ihfs =>
    rw [List.forall_mem_cons] at hfs ih
    have ihfs := ihfs hfs.2 ih.2
    cases f with
    | column name r type tag =>
      have hhead := Field.isNamed_column.mp hfs.1
      have hstep := LayoutState.step_columnLine hdepth hhead r type
      obtain ⟨after, laid, hrest⟩ := ihfs (s.step (columnLine name r type tag))
        (by rw [hstep]; exact hdepth) (before ++ [.column name r type tag])
        (by rw [hstep, hwaiting, List.map_append, List.map_singleton])
        (List.forall_mem_append.mpr ⟨hnamed, List.forall_mem_singleton.mpr hfs.1⟩)
        (List.forall_mem_append.mpr ⟨hcols, List.forall_mem_singleton.mpr rfl⟩)
      exact ⟨after, laid, hrest.column hdepth hhead⟩
    | group name r fields tag =>
      exact exists_laysOut_group hdepth (Field.isNamed_group.mp hfs.1).1 hwaiting hnamed hcols
        (ih.1 hfs.1) fun t ht hnone => ihfs t ht [] hnone nofun nofun

/-- Inside a struct, the loop lays out the fields inside any field. -/
theorem exists_laysOut_inner (f : Field) : f.IsNamed → ∀ s : LayoutState, 0 < s.depth →
    s.waiting = [] → ∃ after inner, LaysOut s [] f.inner after inner := by
  induction f using Field.induction with
  | column name r type tag =>
    intro _ s _ hwaiting
    exact ⟨[], [], laysOut_nil hwaiting nofun nofun⟩
  | group name r fields tag ih =>
    intro hf s hdepth hwaiting
    exact exists_laysOut_of_inner (Field.isNamed_group.mp hf).2 ih s hdepth [] hwaiting nofun nofun

theorem exists_laysOut {fs : List Field} (hfs : ∀ f ∈ fs, f.IsNamed) (hdepth : 0 < s.depth)
    (hwaiting : s.waiting = []) : ∃ after laid, LaysOut s [] fs after laid :=
  exists_laysOut_of_inner hfs (fun f _ => exists_laysOut_inner f) s hdepth [] hwaiting nofun nofun

end ParquetStruct.Struct
