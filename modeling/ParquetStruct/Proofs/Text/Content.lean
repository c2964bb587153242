/-
# ParquetStruct.Proofs.Text.Content — what is left of a text apart from its white space.

Cutting a text into lines, trimming it, filling it up and putting lines together again only ever add
or drop characters of one class.  Here `keep` picks out characters of no such class: each operation
is shown to leave the sequence of the kept characters as it was, whatever the text is.
-/
import ParquetStruct.Proofs.Text.Line

namespace ParquetStruct.Text

variable {keep p : Char → Bool}

/-- If all that was added or dropped is of one class, the other characters are in both texts. -/
theorem mem_iff_of_filter_eq {as bs : List Char} {c : Char} (hc : p c = false)
    (h : ∀ keep : Char → Bool, (∀ d, p d = true → keep d = false) →
      as.filter keep = bs.filter keep) : c ∈ as ↔ c ∈ bs := by
  have hfilter := h (fun d => !p d) fun d hd => by rw [hd]; rfl
  have hkeep : (!p c) = true := by rw [hc]; rfl
  calc c ∈ as ↔ c ∈ as.filter fun d => !p d := by rw [List.mem_filter, and_iff_left hkeep]
    _ ↔ c ∈ bs.filter fun d => !p d := by rw [hfilter]
    _ ↔ c ∈ bs := by rw [List.mem_filter, and_iff_left hkeep]

/-! ## Trimming and filling up -/

/-- A text of characters that are not kept has nothing left. -/
theorem filter_eq_nil_of_forall {ws : List Char} (h : ∀ c ∈ ws, keep c = false) :
    ws.filter keep = [] := by
  rw [List.filter_eq_nil_iff]
  intro c hc
  rw [h c hc]
  exact Bool.false_ne_true

theorem filter_replicate_of_not_keep {c : Char} (h : keep c = false) (k : Nat) :
    (List.replicate k c).filter keep = [] := by
  apply filter_eq_nil_of_forall
  intro d hd
  rw [List.eq_of_mem_replicate hd]
  exact h

theorem filter_trimEndWhere (h : ∀ c, p c = true → keep c = false) (cs : List Char) :
    (trimEndWhere p cs).filter keep = cs.filter keep := by
  have hcut : ((cs.reverse.takeWhile p).reverse).filter keep = [] := by
    apply filter_eq_nil_of_forall
    intro c hc
    exact h c (List.mem_takeWhile_imp (List.mem_reverse.mp hc))
  calc (trimEndWhere p cs).filter keep
      = (trimEndWhere p cs ++ (cs.reverse.takeWhile p).reverse).filter keep := by
        rw [List.filter_append, hcut, List.append_nil]
    _ = cs.filter keep := by rw [trimEndWhere_append]

theorem filter_trimWhere (h : ∀ c, p c = true → keep c = false) (cs : List Char) :
    (trimWhere p cs).filter keep = cs.filter keep := by
  have hcut : (cs.takeWhile p).filter keep = [] := by
    apply filter_eq_nil_of_forall
    intro c hc
    exact h c (List.mem_takeWhile_imp hc)
  calc (trimWhere p cs).filter keep
      = (cs.dropWhile p).filter keep := filter_trimEndWhere h _
    _ = (cs.takeWhile p ++ cs.dropWhile p).filter keep := by
        rw [List.filter_append, hcut, List.nil_append]
    _ = cs.filter keep := by rw [List.takeWhile_append_dropWhile]

theorem filter_padTo (h : keep ' ' = false) (width : Nat) (cs : List Char) :
    (padTo width cs).filter keep = cs.filter keep := by
  rw [padTo, List.filter_append, filter_replicate_of_not_keep h, List.append_nil]

/-! ## Lines -/

/-- A line end is a newline, with a carriage return before it or not. -/
theorem filter_chomp (hn : keep '\n' = false) (hr : keep '\r' = false) (piece : List Char) :
    (chomp piece).filter keep = piece.filter keep := by
  unfold chomp
  split
  · rename_i cs hpiece
    rw [List.reverse_eq_iff.mp hpiece]
    simp [hn, hr]
  · rename_i cs _ hpiece
    rw [List.reverse_eq_iff.mp hpiece]
    simp [hn]
  · rfl

/-- The lines of a text hold all of it but the line ends. -/
theorem filter_lines (hn : keep '\n' = false) (hr : keep '\r' = false) (cs : List Char) :
    (lines cs).flatten.filter keep = cs.filter keep := by
  have hpieces : ∀ ps : List (List Char),
      (ps.map chomp).flatten.filter keep = ps.flatten.filter keep := by
    intro ps
    induction ps with
    | nil => rfl
    | cons p ps ih =>
      simp only [List.map_cons, List.flatten_cons, List.filter_append, filter_chomp hn hr, ih]
  rw [lines, hpieces, flatten_pieces]

theorem filter_unlines (hn : keep '\n' = false) (ls : List (List Char)) :
    (unlines ls).filter keep = ls.flatten.filter keep := by
  induction ls with
  | nil => rfl
  | cons l ls ih =>
    rw [unlines_cons, List.filter_append, List.filter_cons_of_neg (by simp [hn]), ih,
      List.flatten_cons, List.filter_append]

theorem filter_intercalate_newline (hn : keep '\n' = false) (ls : List (List Char)) :
    (['\n'].intercalate ls).filter keep = ls.flatten.filter keep := by
  rcases List.eq_nil_or_concat ls with rfl | ⟨ls, l, rfl⟩
  · rfl
  · rw [List.concat_eq_append, intercalate_newline_append, List.filter_append, filter_unlines hn,
      List.flatten_append, List.filter_append, List.flatten_singleton]

theorem filter_dropFinalNewlines (hn : keep '\n' = false) (cs : List Char) :
    (dropFinalNewlines cs).filter keep = cs.filter keep := by
  apply filter_trimEndWhere
  intro c hc
  rw [beq_iff_eq.mp hc]
  exact hn

end ParquetStruct.Text
