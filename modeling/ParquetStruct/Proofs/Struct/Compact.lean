/-
# ParquetStruct.Proofs.Struct.Compact — the compact layout of one line.

Compacting looks at a line in two parts, up to its first backquote and from there on.  The second
part is kept, and in the first all that counts about a run of spaces is that there is one.  A line
behind any indentation therefore compacts as the line itself, and a rendered line is already
compact.
-/
import ParquetStruct.Proofs.Struct.Line
import ParquetStruct.Struct.Layout

namespace ParquetStruct.Struct

open Text

/-! ## Squeezing -/

theorem isPadding_eq_false_of_not_isBlank {c : Char} (h : isBlank c = false) :
    isPadding c = false := by
  cases hp : isPadding c with
  | false => rfl
  | true =>
    simp only [isPadding, Bool.or_eq_true, beq_iff_eq] at hp
    rcases hp with rfl | rfl
    · exact absurd h (by decide)
    · exact absurd h (by decide)

theorem squeeze_cons (c : Char) (cs : List Char) :
    squeeze (c :: cs) = consSqueezed c (squeeze cs) := rfl

theorem squeeze_append (as bs : List Char) :
    squeeze (as ++ bs) = as.foldr consSqueezed (squeeze bs) :=
  List.foldr_append

theorem consSqueezed_of_not_isPadding {c : Char} (h : isPadding c = false) (cs : List Char) :
    consSqueezed c cs = c :: cs := by
  rw [consSqueezed, h, if_neg Bool.false_ne_true]

/-- Characters other than spaces and tabs pass through squeezing. -/
theorem squeeze_append_of_plain {w : List Char} (h : ∀ c ∈ w, isPadding c = false)
    (cs : List Char) : squeeze (w ++ cs) = w ++ squeeze cs := by
  induction w with
  | nil => rfl
  | cons c w ih =>
    rw [List.cons_append, squeeze_cons, ih fun d hd => h d (List.mem_cons_of_mem c hd),
      consSqueezed_of_not_isPadding (h c List.mem_cons_self), List.cons_append]

theorem squeeze_space_space (cs : List Char) :
    squeeze (' ' :: ' ' :: cs) = squeeze (' ' :: cs) := by
  rw [squeeze_cons ' ' (' ' :: cs), squeeze_cons ' ' cs]
  by_cases hcs : (squeeze cs).head? = some ' '
  · simp [consSqueezed, isPadding, hcs]
  · simp [consSqueezed, isPadding, hcs]

theorem squeeze_replicate_space (k : Nat) (cs : List Char) :
    squeeze (List.replicate k ' ' ++ ' ' :: cs) = squeeze (' ' :: cs) := by
  induction k generalizing cs with
  | zero => rfl
  | succ k ih =>
    rw [List.replicate_succ', List.append_assoc, List.singleton_append, ih, squeeze_space_space]

/-- However many spaces fill a gap up, it is squeezed to the same text. -/
theorem squeeze_fill (as bs : List Char) (k : Nat) :
    squeeze (as ++ List.replicate k ' ' ++ ' ' :: bs) = squeeze (as ++ ' ' :: bs) := by
  rw [List.append_assoc, squeeze_append, squeeze_replicate_space, ← squeeze_append]

/-- A single space before a word stays. -/
theorem squeeze_space_cons {c : Char} (h : isPadding c = false) (cs : List Char) :
    squeeze (' ' :: c :: cs) = ' ' :: squeeze (c :: cs) := by
  have hc : c ≠ ' ' := by
    rintro rfl
    exact absurd h (by decide)
  rw [squeeze_cons ' ', squeeze_cons c, consSqueezed_of_not_isPadding h, consSqueezed]
  simp [isPadding, hc]

/-! ## Compacting -/

/-- The two parts of a line that need no trimming compact separately. -/
theorem compactLine_append {pre tag : List Char} (hpre : '\x60' ∉ pre)
    (htag : tag = [] ∨ tag.head? = some '\x60')
    (hfirst : ∀ c, (pre ++ tag).head? = some c → isBlank c = false)
    (hlast : ∀ c, (pre ++ tag).getLast? = some c → isBlank c = false) :
    compactLine (pre ++ tag) = squeeze pre ++ tag := by
  have htrim : trimWhere isPadding (pre ++ tag) = pre ++ tag :=
    trimWhere_eq_self (fun c hc => isPadding_eq_false_of_not_isBlank (hfirst c hc))
      (fun c hc => isPadding_eq_false_of_not_isBlank (hlast c hc))
  have hplain : ∀ c ∈ pre, (c != '\x60') = true := by
    intro c hc
    have hne : c ≠ '\x60' := fun he => hpre (he ▸ hc)
    simpa using hne
  -- The cut at the first backquote falls between the two parts.
  have hcut : tag.takeWhile (· != '\x60') = [] ∧ tag.dropWhile (· != '\x60') = tag := by
    rcases htag with rfl | htag
    · exact ⟨rfl, rfl⟩
    · obtain ⟨rest, rfl⟩ := List.head?_eq_some_iff.mp htag
      exact ⟨rfl, rfl⟩
  rw [compactLine, htrim, List.takeWhile_append_of_pos hplain,
    List.dropWhile_append_of_pos hplain, hcut.1, hcut.2, List.append_nil]

/-- Indentation makes no difference to the compact layout. -/
theorem compactLine_indentLine (depth : Nat) (line : List Char) :
    compactLine (indentLine depth line) = compactLine line := by
  have htabs : ∀ c ∈ List.replicate depth '\t', isPadding c = true := by
    intro c hc
    rw [List.eq_of_mem_replicate hc]
    rfl
  rw [compactLine, indentLine, trimWhere_append_left htabs, compactLine]

/-! ## Lines of words -/

theorem not_isBlank_of_isWordChar {c : Char} (h : isWordChar c = true) : isBlank c = false := by
  simp only [isWordChar, Bool.and_eq_true] at h
  simpa using h.1

theorem IsWord.plain {w : List Char} (h : IsWord w) : ∀ c ∈ w, isPadding c = false := by
  intro c hc
  exact isPadding_eq_false_of_not_isBlank (not_isBlank_of_isWordChar (h.chars c hc))

/-- What is in a line of words is a space or in one of the words. -/
theorem mem_intercalate_words {c : Char} {ws : List (List Char)} (h : c ∈ [' '].intercalate ws) :
    c = ' ' ∨ ∃ w ∈ ws, c ∈ w := by
  rcases mem_intercalate h with h | h
  · exact Or.inl (List.mem_singleton.mp h)
  · exact Or.inr h

theorem head?_intercalate_words {w : List Char} (h : IsWord w) (ws : List (List Char)) :
    ([' '].intercalate (w :: ws)).head? = w.head? := by
  cases ws with
  | nil => rw [List.intercalate_singleton]
  | cons v vs =>
    rw [List.intercalate_cons_of_ne_nil (List.cons_ne_nil v vs), List.append_assoc,
      List.head?_append_of_ne_nil w h.ne_nil]

/-- Words with single spaces between them pass through squeezing. -/
theorem squeeze_words_append {ws : List (List Char)} (h : ∀ w ∈ ws, IsWord w) (cs : List Char) :
    squeeze ([' '].intercalate ws ++ cs) = [' '].intercalate ws ++ squeeze cs := by
  induction ws with
  | nil => rfl
  | cons w ws ih =>
    have hw : IsWord w := h w List.mem_cons_self
    cases ws with
    | nil => rw [List.intercalate_singleton, squeeze_append_of_plain hw.plain]
    | cons v vs =>
      -- The space after a word stays, because the next word starts with no space.
      have hv : IsWord v := h v (List.mem_cons_of_mem w List.mem_cons_self)
      obtain ⟨c, us, hus⟩ := List.exists_cons_of_ne_nil hv.ne_nil
      obtain ⟨ds, hds⟩ : ∃ ds, [' '].intercalate (v :: vs) = c :: ds := by
        rw [← List.head?_eq_some_iff, head?_intercalate_words hv, hus, List.head?_cons]
      have hc : isPadding c = false := hv.plain c (hus ▸ List.mem_cons_self)
      have ih := ih fun u hu => h u (List.mem_cons_of_mem w hu)
      rw [hds, List.cons_append] at ih
      rw [List.intercalate_cons_of_ne_nil (List.cons_ne_nil v vs), List.append_assoc,
        List.append_assoc, squeeze_append_of_plain hw.plain, hds, List.singleton_append,
        List.cons_append, squeeze_space_cons hc, ih]
      simp only [List.append_assoc, List.cons_append, List.nil_append]

/-! ## Rendered lines are compact -/

/-- A line without white space at its ends that is its own compact layout. -/
structure IsCompactLine (l : List Char) : Prop where
  ne_nil : l ≠ []
  first : ∀ c, l.head? = some c → isBlank c = false
  last : ∀ c, l.getLast? = some c → isBlank c = false
  noNewline : '\n' ∉ l
  compact : compactLine l = l

theorem IsCompactLine.isLine {l : List Char} (h : IsCompactLine l) : IsLine l :=
  ⟨h.noNewline, fun hlast => absurd (h.last _ hlast) (by decide)⟩

theorem IsCompactLine.trim_eq {l : List Char} (h : IsCompactLine l) : trim l = l :=
  trimWhere_eq_self h.first h.last

theorem not_mem_words {ws : List (List Char)} (h : ∀ w ∈ ws, IsWord w) {c : Char}
    (hc : isWordChar c = false) (hne : c ≠ ' ') : c ∉ [' '].intercalate ws := by
  intro hmem
  rcases mem_intercalate_words hmem with hspace | ⟨w, hw, hmem⟩
  · exact hne hspace
  · exact (h w hw).not_mem hc hmem

theorem head?_word {w : List Char} (h : IsWord w) (cs : List Char) :
    ∀ c, (w ++ cs).head? = some c → isBlank c = false := by
  intro c hc
  rw [List.head?_append_of_ne_nil w h.ne_nil] at hc
  exact not_isBlank_of_isWordChar (h.chars c (List.mem_of_mem_head? hc))

theorem getLast?_word {w : List Char} (h : IsWord w) (cs : List Char) :
    ∀ c, (cs ++ w).getLast? = some c → isBlank c = false := by
  intro c hc
  rw [List.getLast?_append_of_ne_nil cs h.ne_nil] at hc
  exact not_isBlank_of_isWordChar (h.chars c (List.mem_of_getLast? hc))

/-- Words with single spaces between them start with a word and end with one. -/
theorem exists_intercalate_words_eq {ws : List (List Char)} (h : ∀ w ∈ ws, IsWord w)
    (hne : ws ≠ []) :
    (∃ w cs, IsWord w ∧ [' '].intercalate ws = w ++ cs) ∧
      ∃ cs w, IsWord w ∧ [' '].intercalate ws = cs ++ w := by
  induction ws with
  | nil => exact absurd rfl hne
  | cons w ws ih =>
    have hw : IsWord w := h w List.mem_cons_self
    by_cases hws : ws = []
    · rw [hws, List.intercalate_singleton]
      exact ⟨⟨w, [], hw, (List.append_nil w).symm⟩, [], w, hw, rfl⟩
    · obtain ⟨-, cs, v, hv, heq⟩ := ih (fun u hu => h u (List.mem_cons_of_mem w hu)) hws
      rw [List.intercalate_cons_of_ne_nil hws, heq]
      exact ⟨⟨w, [' '] ++ (cs ++ v), hw, List.append_assoc _ _ _⟩,
        w ++ [' '] ++ cs, v, hv, (List.append_assoc _ _ _).symm⟩

theorem isCompactLine_words {ws : List (List Char)} (h : ∀ w ∈ ws, IsWord w) (hne : ws ≠ []) :
    IsCompactLine ([' '].intercalate ws) := by
  obtain ⟨⟨v, cs, hv, hstart⟩, ds, w, hw, hend⟩ := exists_intercalate_words_eq h hne
  have hfirst := head?_word hv cs
  have hlast := getLast?_word hw ds
  rw [← hstart] at hfirst
  rw [← hend] at hlast
  have hcompact : compactLine ([' '].intercalate ws ++ []) = squeeze ([' '].intercalate ws) ++ [] :=
    compactLine_append (not_mem_words h rfl (by decide)) (Or.inl rfl) (by rwa [List.append_nil])
      (by rwa [List.append_nil])
  have hsqueeze := squeeze_words_append h []
  rw [List.append_nil, List.append_nil] at hcompact
  rw [List.append_nil, show squeeze [] = [] from rfl, List.append_nil] at hsqueeze
  refine ⟨?_, hfirst, hlast, not_mem_words h rfl (by decide), hcompact.trans hsqueeze⟩
  rw [hend]
  exact List.append_ne_nil_of_right_ne_nil ds hw.ne_nil

theorem isCompactLine_words_tag {ws : List (List Char)} (h : ∀ w ∈ ws, IsWord w) (hne : ws ≠ [])
    {tag : List Char} (htag : IsTagText tag) :
    IsCompactLine ([' '].intercalate ws ++ ' ' :: tag) := by
  obtain ⟨⟨v, cs, hv, hstart⟩, -⟩ := exists_intercalate_words_eq h hne
  have hfirst : ∀ c, ([' '].intercalate ws ++ [' '] ++ tag).head? = some c → isBlank c = false := by
    rw [hstart, List.append_assoc, List.append_assoc]
    exact head?_word hv _
  have hlast : ∀ c, ([' '].intercalate ws ++ [' '] ++ tag).getLast? = some c →
      isBlank c = false := by
    intro c hc
    rw [getLast?_tagText htag, Option.some.injEq] at hc
    rw [← hc]
    decide
  have hbackquote : '\x60' ∉ [' '].intercalate ws ++ [' '] := by
    rw [List.mem_append]
    rintro (hc | hc)
    · exact not_mem_words h rfl (by decide) hc
    · exact absurd hc (by decide)
  have hnewline : '\n' ∉ [' '].intercalate ws ++ [' '] ++ tag := by
    rw [List.mem_append, List.mem_append]
    rintro ((hc | hc) | hc)
    · exact not_mem_words h rfl (by decide) hc
    · exact absurd hc (by decide)
    · exact htag.noNewline hc
  rw [List.append_cons]
  refine ⟨List.append_ne_nil_of_right_ne_nil _ htag.ne_nil, hfirst, hlast, hnewline, ?_⟩
  rw [compactLine_append hbackquote (Or.inr htag.head) hfirst hlast, squeeze_words_append h]
  rfl

/-- Every rendered line is compact. -/
theorem Rendered.isCompactLine {l : List Char} (h : Rendered l) : IsCompactLine l := by
  cases h with
  | words h hne => exact isCompactLine_words h hne
  | @column name type tag hname htype htag =>
    have hwords : ∀ w ∈ [name, type], IsWord w := by
      simp only [List.forall_mem_cons]
      exact ⟨hname, htype, nofun⟩
    have h := isCompactLine_words_tag hwords (List.cons_ne_nil _ _) htag
    rwa [List.intercalate_cons_of_ne_nil (List.cons_ne_nil _ _), List.intercalate_singleton,
      List.append_assoc name, List.singleton_append] at h
  | closing htag =>
    have h := isCompactLine_words_tag (List.forall_mem_singleton.mpr isWord_closeBrace)
      (List.cons_ne_nil _ _) htag
    rwa [List.intercalate_singleton] at h

end ParquetStruct.Struct
