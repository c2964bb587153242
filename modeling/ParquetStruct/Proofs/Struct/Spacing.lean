/-
# ParquetStruct.Proofs.Struct.Spacing — both layouts touch white space only.

This holds of every text, whether it was rendered or not.  The layout loop reads a line at a time
and may hold it back in a section until a later one; what it holds is in the lines laid out and in
the fields that wait, in this order.  Apart from white space, one step adds to this exactly the line
it reads, so a run adds exactly the text, whichever way its lines were cut into fields and aligned.
Compacting is settled line by line, by what squeezing does at one character.
-/
import ParquetStruct.Proofs.Struct.Loop
import ParquetStruct.Proofs.Text.Content

namespace ParquetStruct.Struct

open Text

variable {keep : Char → Bool}

/-! ## Field lines -/

theorem filter_indentLine (htab : keep '\t' = false) (depth : Nat) (l : List Char) :
    (indentLine depth l).filter keep = l.filter keep := by
  rw [indentLine, List.filter_append, filter_replicate_of_not_keep htab, List.nil_append]

/-- Aligning a field adds spaces to its line. -/
theorem FieldLine.filter_aligned (hspace : keep ' ' = false) (nameWidth typeWidth : Nat)
    (f : FieldLine) : (f.aligned nameWidth typeWidth).filter keep = f.chars.filter keep := by
  unfold aligned chars
  by_cases htag : f.tag = []
  · simp [htag, hspace, filter_padTo hspace]
  · simp [htag, hspace, filter_padTo hspace]

/-- A section is laid out with all its fields, in order. -/
theorem filter_alignSection (hblank : ∀ c, isBlank c = true → keep c = false) (depth : Nat)
    (fs : List FieldLine) :
    (alignSection depth fs).flatten.filter keep =
      (fs.map FieldLine.chars).flatten.filter keep := by
  obtain ⟨nameWidth, typeWidth, heq⟩ := alignSection_eq depth fs
  rw [heq]
  clear heq
  induction fs with
  | nil => rfl
  | cons f fs ih =>
    have hline : (indentLine depth (trimEnd (f.aligned nameWidth typeWidth))).filter keep =
        f.chars.filter keep := by
      rw [filter_indentLine (hblank '\t' rfl), trimEnd, filter_trimEndWhere hblank,
        f.filter_aligned (hblank ' ' rfl)]
    simp only [List.map_cons, List.flatten_cons, List.filter_append, hline, ih]

/-! ## The layout loop -/

/-- The characters that the loop holds: those of the lines laid out, then those of the fields that
wait. -/
def LayoutState.held (s : LayoutState) : List Char :=
  s.laid.flatten ++ (s.waiting.map FieldLine.chars).flatten

/-- Reading a line adds it to what the loop holds, whatever becomes of the fields that waited. -/
theorem LayoutState.filter_held_step (hblank : ∀ c, isBlank c = true → keep c = false)
    (s : LayoutState) (l : List Char) :
    (s.step l).held.filter keep = s.held.filter keep ++ l.filter keep := by
  have htrim : (trim l).filter keep = l.filter keep := filter_trimWhere hblank l
  rw [step]
  cases hf : FieldLine.ofLine? s.depth (trim l) with
  | some f =>
    have hchars : f.chars.filter keep = l.filter keep := by
      rw [FieldLine.chars_of_ofLine? hf, htrim]
    dsimp only
    split
    · -- The section ends with this field, and nothing waits any longer.
      simp [held, filter_alignSection hblank, hchars]
    · simp [held, hchars]
  | none =>
    simp [held, filter_alignSection hblank, filter_indentLine (hblank '\t' rfl), htrim]

/-- After a run the loop holds what it held before and the lines it has read. -/
theorem LayoutState.filter_held_run (hblank : ∀ c, isBlank c = true → keep c = false)
    (s : LayoutState) (ls : List (List Char)) :
    (s.run ls).held.filter keep = s.held.filter keep ++ ls.flatten.filter keep := by
  induction ls generalizing s with
  | nil => rw [run_nil, List.flatten_nil, List.filter_nil, List.append_nil]
  | cons l ls ih =>
    rw [run_cons, ih, filter_held_step hblank, List.append_assoc, List.flatten_cons,
      List.filter_append]

theorem LayoutState.filter_finish (hblank : ∀ c, isBlank c = true → keep c = false)
    (s : LayoutState) : s.finish.flatten.filter keep = s.held.filter keep := by
  rw [finish, held, List.flatten_append, List.filter_append, List.filter_append,
    filter_alignSection hblank]

/-- Indenting keeps every character that is not white space, in order. -/
theorem filter_indentChars (hblank : ∀ c, isBlank c = true → keep c = false) (cs : List Char) :
    (indentChars cs).filter keep = cs.filter keep := by
  have hrun : indentLines 0 [] (lines cs) = (LayoutState.run {} (lines cs)).finish :=
    LayoutState.laid_append_indentLines {} (lines cs)
  have hn : keep '\n' = false := hblank '\n' rfl
  calc (indentChars cs).filter keep
      = (indentLines 0 [] (lines cs)).flatten.filter keep := by
        rw [indentChars, filter_dropFinalNewlines hn, filter_unlines hn]
    _ = (LayoutState.held {}).filter keep ++ (lines cs).flatten.filter keep := by
        rw [hrun, LayoutState.filter_finish hblank, LayoutState.filter_held_run hblank]
    _ = cs.filter keep := filter_lines hn (hblank '\r' rfl) cs

/-! ## Compacting -/

/-- A space or tab is replaced by a space, or dropped before one. -/
theorem filter_consSqueezed (hpadding : ∀ c, isPadding c = true → keep c = false) (c : Char)
    (cs : List Char) : (consSqueezed c cs).filter keep = (c :: cs).filter keep := by
  unfold consSqueezed
  split
  · rename_i hc
    have hspace : keep ' ' = false := hpadding ' ' rfl
    rw [List.filter_cons_of_neg (by simp [hpadding c hc])]
    split
    · rfl
    · rw [List.filter_cons_of_neg (by simp [hspace])]
  · rfl

theorem filter_squeeze (hpadding : ∀ c, isPadding c = true → keep c = false) (cs : List Char) :
    (squeeze cs).filter keep = cs.filter keep := by
  induction cs with
  | nil => rfl
  | cons c cs ih =>
    rw [squeeze_cons, filter_consSqueezed hpadding, List.filter_cons, List.filter_cons, ih]

theorem filter_compactLine (hpadding : ∀ c, isPadding c = true → keep c = false)
    (l : List Char) : (compactLine l).filter keep = l.filter keep := by
  rw [compactLine, List.filter_append, filter_squeeze hpadding, ← List.filter_append,
    List.takeWhile_append_dropWhile, filter_trimWhere hpadding]

/-- Compacting keeps every character that is no space, tab or line end, in order. -/
theorem filter_compactChars (hpadding : ∀ c, isPadding c = true → keep c = false)
    (hn : keep '\n' = false) (hr : keep '\r' = false) (cs : List Char) :
    (compactChars cs).filter keep = cs.filter keep := by
  have hlines : ∀ ls : List (List Char),
      (ls.map compactLine).flatten.filter keep = ls.flatten.filter keep := by
    intro ls
    induction ls with
    | nil => rfl
    | cons l ls ih =>
      simp only [List.map_cons, List.flatten_cons, List.filter_append,
        filter_compactLine hpadding, ih]
  rw [compactChars, filter_dropFinalNewlines hn, filter_intercalate_newline hn, hlines,
    filter_lines hn hr]

/-! ## Texts -/

/-- The characters that the compact layout is free to change: spaces, tabs and line ends. -/
def isSpacing (c : Char) : Bool :=
  c == ' ' || c == '\t' || c == '\r' || c == '\n'

/-- Whatever the text is, indenting changes nothing but its white space, and compacting nothing but
its spaces, tabs and line ends: no other character is lost, doubled or moved past another. -/
theorem filter_indent_and_compact (text : String) :
    (indent text).toList.filter (fun c => !isBlank c) =
        text.toList.filter (fun c => !isBlank c) ∧
      (compact text).toList.filter (fun c => !isSpacing c) =
        text.toList.filter (fun c => !isSpacing c) := by
  constructor
  · rw [indent, String.toList_ofList]
    apply filter_indentChars
    intro c hc
    rw [hc]
    rfl
  · rw [compact, String.toList_ofList]
    apply filter_compactChars
    · intro c hc
      simp only [isPadding, Bool.or_eq_true, beq_iff_eq] at hc
      rcases hc with rfl | rfl
      · rfl
      · rfl
    · rfl
    · rfl

end ParquetStruct.Struct
