/-
# ParquetStruct.Proofs.Struct.NormalForm — the compact layout is a normal form.

A line is normal if no space or tab stands at its ends, and before its first backquote there is no
tab and no space next to another.  Compacting makes every line normal, and the lines that it leaves
alone are just the normal ones: trimming and squeezing leave nothing to do for each other.  A text
is normal if its lines are and no newline ends it, and compacting leaves such a text alone, provided
that its lines are cut as they were put together.  A carriage return stands in the way of that: at
the end of a line it becomes part of the line end.
-/
import ParquetStruct.Proofs.Struct.Compact
import ParquetStruct.Proofs.Struct.Spacing
import Mathlib.Data.List.Chain

namespace ParquetStruct.Struct

open Text

/-! ## Squeezed text -/

/-- No tab, and no two spaces side by side. -/
structure IsSqueezed (cs : List Char) : Prop where
  noTab : '\t' ∉ cs
  single : cs.IsChain fun c d => ¬(c = ' ' ∧ d = ' ')

theorem isSqueezed_nil : IsSqueezed [] := ⟨List.not_mem_nil, List.isChain_nil⟩

theorem IsSqueezed.tail {c : Char} {cs : List Char} (h : IsSqueezed (c :: cs)) : IsSqueezed cs :=
  ⟨fun hmem => h.noTab (List.mem_cons_of_mem c hmem), (List.isChain_cons.mp h.single).2⟩

theorem ne_of_isPadding_eq_false {c : Char} (h : isPadding c = false) : c ≠ ' ' ∧ c ≠ '\t' := by
  simpa [isPadding] using h

theorem isSqueezed_consSqueezed {cs : List Char} (h : IsSqueezed cs) (c : Char) :
    IsSqueezed (consSqueezed c cs) := by
  unfold consSqueezed
  split
  · split
    · exact h
    · rename_i hhead
      refine ⟨List.not_mem_cons_of_ne_of_not_mem (by decide) h.noTab, ?_⟩
      refine List.isChain_cons.mpr ⟨?_, h.single⟩
      rintro d hd ⟨-, rfl⟩
      exact hhead (beq_iff_eq.mpr hd)
  · rename_i hc
    obtain ⟨hspace, htab⟩ := ne_of_isPadding_eq_false (Bool.eq_false_iff.mpr hc)
    refine ⟨List.not_mem_cons_of_ne_of_not_mem (Ne.symm htab) h.noTab, ?_⟩
    refine List.isChain_cons.mpr ⟨?_, h.single⟩
    rintro d - ⟨rfl, -⟩
    exact hspace rfl

theorem isSqueezed_squeeze (cs : List Char) : IsSqueezed (squeeze cs) := by
  induction cs with
  | nil => exact isSqueezed_nil
  | cons c cs ih => exact isSqueezed_consSqueezed ih c

/-- Squeezed text is not squeezed any further. -/
theorem IsSqueezed.squeeze_eq {cs : List Char} (h : IsSqueezed cs) : squeeze cs = cs := by
  induction cs with
  | nil => rfl
  | cons c cs ih =>
    rw [squeeze_cons, ih h.tail]
    by_cases hc : isPadding c = true
    · have hspace : c = ' ' := by
        have htab : c ≠ '\t' := fun he => h.noTab (he ▸ List.mem_cons_self)
        simpa [isPadding, htab] using hc
      have hhead : cs.head? ≠ some ' ' := fun hd =>
        (List.isChain_cons.mp h.single).1 ' ' hd ⟨hspace, rfl⟩
      simp [consSqueezed, isPadding, hspace, hhead]
    · exact consSqueezed_of_not_isPadding (Bool.eq_false_iff.mpr hc) cs

theorem mem_squeeze_iff {c : Char} (h : isPadding c = false) {cs : List Char} :
    c ∈ squeeze cs ↔ c ∈ cs :=
  mem_iff_of_filter_eq h fun _ hkeep => filter_squeeze hkeep cs

/-- Squeezing the front of a text keeps its first character, if that is no space or tab. -/
theorem head?_squeeze_append {as bs : List Char}
    (h : ∀ c, (as ++ bs).head? = some c → isPadding c = false) :
    (squeeze as ++ bs).head? = (as ++ bs).head? := by
  cases as with
  | nil => rfl
  | cons c as =>
    rw [squeeze_cons, consSqueezed_of_not_isPadding (h c rfl)]
    rfl

theorem getLast?_foldr_consSqueezed {c : Char} {cs : List Char} (h : cs.getLast? = some c)
    (as : List Char) : (as.foldr consSqueezed cs).getLast? = some c := by
  induction as with
  | nil => exact h
  | cons a as ih =>
    rw [List.foldr_cons, consSqueezed]
    split
    · split
      · exact ih
      · rw [List.getLast?_cons, ih]
        rfl
    · rw [List.getLast?_cons, ih]
      rfl

/-- Squeezing the front of a text keeps its last character, if that is no space or tab. -/
theorem getLast?_squeeze_append {as bs : List Char}
    (h : ∀ c, (as ++ bs).getLast? = some c → isPadding c = false) :
    (squeeze as ++ bs).getLast? = (as ++ bs).getLast? := by
  -- The last character is part of what is squeezed only if nothing follows.
  by_cases hbs : bs = []
  · subst hbs
    rw [List.append_nil] at h
    rw [List.append_nil, List.append_nil]
    rcases List.eq_nil_or_concat as with rfl | ⟨as, c, rfl⟩
    · rfl
    · rw [List.concat_eq_append] at h ⊢
      have hc : isPadding c = false := h c List.getLast?_concat
      have hlast : (squeeze [c]).getLast? = some c := by
        rw [squeeze_cons, consSqueezed_of_not_isPadding hc]
        rfl
      rw [squeeze_append, getLast?_foldr_consSqueezed hlast, List.getLast?_concat]
  · rw [List.getLast?_append_of_ne_nil _ hbs, List.getLast?_append_of_ne_nil _ hbs]

/-! ## The two parts of a line -/

/-- A line up to its first backquote. -/
def beforeTag (l : List Char) : List Char := l.takeWhile (· != '\x60')

/-- A line from its first backquote on. -/
def fromTag (l : List Char) : List Char := l.dropWhile (· != '\x60')

theorem beforeTag_append_fromTag (l : List Char) : beforeTag l ++ fromTag l = l :=
  List.takeWhile_append_dropWhile

theorem not_mem_beforeTag (l : List Char) : '\x60' ∉ beforeTag l := by
  intro h
  exact absurd (List.mem_takeWhile_imp h) (by decide)

/-- Whatever stands before the part with the tag, if it holds no backquote the line is cut there. -/
theorem beforeTag_and_fromTag_append {pre : List Char} (h : '\x60' ∉ pre) (l : List Char) :
    beforeTag (pre ++ fromTag l) = pre ∧ fromTag (pre ++ fromTag l) = fromTag l := by
  have hpre : ∀ c ∈ pre, (c != '\x60') = true := fun c hc => bne_iff_ne.mpr fun he => h (he ▸ hc)
  have hdrop : fromTag (pre ++ fromTag l) = fromTag l := by
    rw [fromTag, List.dropWhile_append_of_pos hpre, fromTag, List.dropWhile_idempotent]
  have hwhole := beforeTag_append_fromTag (pre ++ fromTag l)
  rw [hdrop, List.append_cancel_right_eq] at hwhole
  exact ⟨hwhole, hdrop⟩

/-- Trimming a line trims the end of the part with the tag. -/
theorem fromTag_trimWhere (l : List Char) :
    fromTag (trimWhere isPadding l) = trimEndWhere isPadding (fromTag l) := by
  by_cases h : '\x60' ∈ l
  · obtain ⟨pre, rest, rfl, hpre⟩ := List.eq_append_cons_of_mem h
    have hpre' : '\x60' ∉ pre.dropWhile isPadding := fun hmem =>
      hpre ((List.dropWhile_suffix isPadding).mem hmem)
    rw [trimWhere_append_cons rfl, fromTag, dropWhile_append_cons hpre', fromTag,
      dropWhile_append_cons hpre]
    exact (trimEndWhere_append_cons rfl [] rest).symm
  · have hnone : ∀ m : List Char, '\x60' ∉ m → fromTag m = [] := by
      intro m hm
      rw [fromTag, List.dropWhile_eq_nil_iff]
      exact fun c hc => bne_iff_ne.mpr fun he => hm (he ▸ hc)
    have htrim : '\x60' ∈ trimWhere isPadding l ↔ '\x60' ∈ l :=
      mem_iff_of_filter_eq rfl fun _ hkeep => filter_trimWhere hkeep l
    rw [hnone l h, hnone _ (mt htrim.mp h)]
    rfl

/-! ## Normal lines -/

/-- A line without a space or tab at its ends, whose part before the first backquote is squeezed. -/
structure IsNormalLine (l : List Char) : Prop where
  first : ∀ c, l.head? = some c → isPadding c = false
  last : ∀ c, l.getLast? = some c → isPadding c = false
  squeezed : IsSqueezed (beforeTag l)

theorem compactLine_eq (l : List Char) :
    compactLine l =
      squeeze (beforeTag (trimWhere isPadding l)) ++ fromTag (trimWhere isPadding l) := rfl

theorem beforeTag_and_fromTag_compactLine (l : List Char) :
    beforeTag (compactLine l) = squeeze (beforeTag (trimWhere isPadding l)) ∧
      fromTag (compactLine l) = fromTag (trimWhere isPadding l) := by
  rw [compactLine_eq]
  apply beforeTag_and_fromTag_append
  rw [mem_squeeze_iff rfl]
  exact not_mem_beforeTag _

theorem isNormalLine_compactLine (l : List Char) : IsNormalLine (compactLine l) := by
  have hparts := beforeTag_append_fromTag (trimWhere isPadding l)
  have hfirst : ∀ c, (trimWhere isPadding l).head? = some c → isPadding c = false := fun c hc =>
    eq_false_of_head?_trimWhere hc
  have hlast : ∀ c, (trimWhere isPadding l).getLast? = some c → isPadding c = false := fun c hc =>
    eq_false_of_getLast?_trimEndWhere hc
  -- Squeezing leaves the ends of the trimmed line alone.
  rw [← hparts] at hfirst hlast
  refine ⟨?_, ?_, ?_⟩
  · rwa [compactLine_eq, head?_squeeze_append hfirst]
  · rwa [compactLine_eq, getLast?_squeeze_append hlast]
  · rw [(beforeTag_and_fromTag_compactLine l).1]
    exact isSqueezed_squeeze _

/-- The lines that compacting leaves alone are the normal ones. -/
theorem compactLine_eq_self_iff {l : List Char} : compactLine l = l ↔ IsNormalLine l := by
  constructor
  · intro h
    rw [← h]
    exact isNormalLine_compactLine l
  · intro h
    rw [compactLine_eq, trimWhere_eq_self h.first h.last, h.squeezed.squeeze_eq,
      beforeTag_append_fromTag]

/-- The part of a line from its first backquote on stays, except for spaces and tabs at its end. -/
theorem fromTag_compactLine (l : List Char) :
    fromTag (compactLine l) = trimEndWhere isPadding (fromTag l) := by
  rw [(beforeTag_and_fromTag_compactLine l).2, fromTag_trimWhere]

theorem mem_compactLine_iff {c : Char} (h : isPadding c = false) {l : List Char} :
    c ∈ compactLine l ↔ c ∈ l :=
  mem_iff_of_filter_eq h fun _ hkeep => filter_compactLine hkeep l

/-! ## Texts -/

theorem isLine_compactLine {l : List Char} (h : '\n' ∉ l ∧ '\r' ∉ l) : IsLine (compactLine l) := by
  apply isLine_of_not_mem
  rwa [mem_compactLine_iff rfl, mem_compactLine_iff rfl]

/-- The lines of the compact layout are the compact lines of the text, but for empty ones at the
end. -/
theorem exists_lines_compactChars {cs : List Char} (h : '\r' ∉ cs) :
    ∃ k, (lines cs).map compactLine = lines (compactChars cs) ++ List.replicate k [] := by
  apply exists_lines_dropFinalNewlines
  intro m hm
  obtain ⟨l, hl, rfl⟩ := List.mem_map.mp hm
  exact isLine_compactLine (not_mem_of_mem_lines h l hl)

theorem return_not_mem_compactChars {cs : List Char} (h : '\r' ∉ cs) : '\r' ∉ compactChars cs := by
  intro hmem
  rcases mem_intercalate ((List.rdropWhile_prefix _ _).mem hmem) with hmem | ⟨m, hm, hmem⟩
  · exact absurd hmem (by decide)
  · obtain ⟨l, hl, rfl⟩ := List.mem_map.mp hm
    exact (not_mem_of_mem_lines h l hl).2 ((mem_compactLine_iff rfl).mp hmem)

/-- A text of normal lines that ends in no newline. -/
structure IsNormal (text : String) : Prop where
  lines : ∀ l ∈ Text.lines text.toList, IsNormalLine l
  last : text.toList.getLast? ≠ some '\n'

theorem isNormal_compact {text : String} (h : '\r' ∉ text.toList) : IsNormal (compact text) := by
  obtain ⟨k, hlines⟩ := exists_lines_compactChars h
  refine ⟨?_, ?_⟩
  · intro l hl
    rw [compact, String.toList_ofList] at hl
    obtain ⟨m, -, rfl⟩ := List.mem_map.mp (hlines ▸ List.mem_append_left _ hl)
    exact isNormalLine_compactLine m
  · intro hlast
    rw [compact, String.toList_ofList] at hlast
    exact absurd (eq_false_of_getLast?_trimEndWhere hlast) (by decide)

/-- Compacting leaves normal texts alone. -/
theorem IsNormal.compact_eq {text : String} (h : IsNormal text) (hr : '\r' ∉ text.toList) :
    compact text = text := by
  have hlines : (Text.lines text.toList).map compactLine = Text.lines text.toList :=
    (List.map_congr_left fun l hl => compactLine_eq_self_iff.mpr (h.lines l hl)).trans
      (List.map_id' _)
  have hlast : ∀ c, text.toList.getLast? = some c → (c == '\n') = false := by
    intro c hc
    rw [beq_eq_false_iff_ne]
    rintro rfl
    exact h.last hc
  rw [compact, compactChars, hlines, intercalate_lines hr h.last, dropFinalNewlines,
    trimEndWhere_eq_self hlast, String.ofList_toList]

/-- Compacting a text without carriage returns gives a normal text, which compacting leaves alone.
Line by line, apart from empty lines at the end, what follows the first backquote is kept but for
spaces and tabs at its end. -/
theorem isNormal_and_idempotent_compact {text : String} (h : '\r' ∉ text.toList) :
    IsNormal (compact text) ∧ compact (compact text) = compact text ∧
      ∃ k, List.Forall₂ (fun l m => fromTag m = trimEndWhere isPadding (fromTag l))
        (lines text.toList) (lines (compact text).toList ++ List.replicate k []) := by
  have hnormal : IsNormal (compact text) := isNormal_compact h
  have hr : '\r' ∉ (compact text).toList := by
    rw [compact, String.toList_ofList]
    exact return_not_mem_compactChars h
  refine ⟨hnormal, hnormal.compact_eq hr, ?_⟩
  obtain ⟨k, hlines⟩ := exists_lines_compactChars h
  refine ⟨k, ?_⟩
  rw [compact, String.toList_ofList, ← hlines, List.forall₂_map_right_iff, List.forall₂_same]
  exact fun l _ => fromTag_compactLine l

/-- A text of lines with and without tags, with too much space in every place. -/
def untidyText : String := "\n\t A \t b  \x60x  y\x60 \t\n \x60z\t\x60 \n\n  c\n \n\n"

theorem isNormal_and_idempotent_untidyText :
    '\r' ∉ untidyText.toList ∧
      compact untidyText = "\nA b \x60x  y\x60\n\x60z\t\x60\n\nc" ∧
        IsNormal (compact untidyText) ∧ compact (compact untidyText) = compact untidyText ∧
          ∃ k, List.Forall₂ (fun l m => fromTag m = trimEndWhere isPadding (fromTag l))
            (lines untidyText.toList)
            (lines (compact untidyText).toList ++ List.replicate k []) := by
  have hr : '\r' ∉ untidyText.toList := by decide
  have htext : compact untidyText = "\nA b \x60x  y\x60\n\x60z\t\x60\n\nc" := by decide
  exact ⟨hr, htext, isNormal_and_idempotent_compact hr⟩

/-- Of two carriage returns before a newline the first is left, and is part of the line end then. -/
example : compact "a\r\r\nb" = "a\r\nb" ∧ compact "a\r\nb" = "a\nb" := by decide

end ParquetStruct.Struct
