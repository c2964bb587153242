/-
# ParquetStruct.Proofs.Struct.Layout — compacting undoes indenting.

Indenting reads the lines of a text again to find out which of them are fields.  Whatever it takes
for a field is cut into parts that make up the line, with no backquote before the tag; this is all
that is needed, as alignment puts spaces between the parts and compacting takes them away.  So each
line of an indented declaration compacts to the line it was laid out from, at every depth and with
any fields waiting for the end of their section, and the lines keep their order.
-/
import ParquetStruct.Proofs.Struct.Compact
import Mathlib.Data.List.Forall2

namespace ParquetStruct.Struct

open Text

/-! ## Fields read back -/

/-- The line that a field was read from. -/
def FieldLine.chars (f : FieldLine) : List Char :=
  if f.tag = [] then f.name ++ ' ' :: f.type else f.name ++ ' ' :: f.type ++ ' ' :: f.tag

/-- A field cut out of a line in such a way that only its tag holds a backquote, if anything. -/
structure FieldLine.IsCut (f : FieldLine) : Prop where
  name : '\x60' ∉ f.name
  type : '\x60' ∉ f.type
  tag : f.tag = [] ∨ f.tag.head? = some '\x60'

theorem cutTag_of_not_mem {cs : List Char} (h : '\x60' ∉ cs) (seen : List Char) :
    cutTag seen cs = (seen.reverse ++ cs, []) := by
  induction cs generalizing seen with
  | nil => rw [cutTag, List.append_nil]
  | cons c cs ih =>
    rw [cutTag, ih fun hc => h (List.mem_cons_of_mem c hc)]
    · rw [List.reverse_cons, List.append_assoc, List.singleton_append]
    · rintro rest - rfl
      exact h (List.mem_cons_of_mem c List.mem_cons_self)

theorem cutTag_append {w : List Char} (h : ' ' ∉ w) (seen tag : List Char) :
    cutTag seen (w ++ ' ' :: '\x60' :: tag) = (seen.reverse ++ w, '\x60' :: tag) := by
  induction w generalizing seen with
  | nil => rw [List.nil_append, cutTag, List.append_nil]
  | cons c w ih =>
    rw [List.cons_append, cutTag, ih fun hc => h (List.mem_cons_of_mem c hc)]
    · rw [List.reverse_cons, List.append_assoc, List.singleton_append]
    · rintro rest rfl -
      exact h List.mem_cons_self

/-- A line that is read as a field is cut at its first space, and then before a tag if there is
one. -/
theorem FieldLine.ofLine?_eq_some {depth : Nat} {l : List Char} {f : FieldLine}
    (h : FieldLine.ofLine? depth l = some f) :
    l.head? ≠ some '\x7d' ∧ ' ' ∉ f.name ∧ ∃ rest, l = f.name ++ ' ' :: rest ∧
      (rest.getLast? = some '\x7b' ∧ f.type = rest ∧ f.tag = [] ∨
        cutTag [] rest = (f.type, f.tag)) := by
  unfold FieldLine.ofLine? at h
  split at h
  · cases h
  · rename_i hstart
    rw [Bool.or_eq_true, not_or] at hstart
    have hhead : l.head? ≠ some '\x7d' := fun he => hstart.2 (by rw [he]; rfl)
    split at h
    · cases h
    · -- What is dropped up to is the first space, so the name before it holds none.
      rename_i c rest hdrop
      have hc : c = ' ' := by
        have hfirst := List.head?_dropWhile_not (· != ' ') l
        rw [hdrop] at hfirst
        simpa using hfirst
      have hname : ' ' ∉ l.takeWhile (· != ' ') := by
        intro hmem
        exact absurd (List.mem_takeWhile_imp hmem) (by decide)
      have hl : l = l.takeWhile (· != ' ') ++ ' ' :: rest := by
        rw [hc] at hdrop
        rw [← hdrop, List.takeWhile_append_dropWhile]
      dsimp only at h
      split at h
      · rename_i hlast
        cases h
        exact ⟨hhead, hname, rest, hl, Or.inl ⟨beq_iff_eq.mp hlast, rfl, rfl⟩⟩
      · cases h
        exact ⟨hhead, hname, rest, hl, Or.inr rfl⟩

/-- Wherever a text is cut before a tag, the cut loses nothing but the space there. -/
theorem append_eq_of_cutTag {seen cs type tag : List Char} (h : cutTag seen cs = (type, tag)) :
    seen.reverse ++ cs = if tag = [] then type else type ++ ' ' :: tag := by
  induction cs generalizing seen with
  | nil =>
    rw [cutTag] at h
    cases h
    rw [if_pos rfl, List.append_nil]
  | cons c cs ih =>
    rw [cutTag.eq_def] at h
    split at h
    · rename_i heq
      cases heq
    · -- The cut is made here.
      rename_i rest heq
      cases h
      rw [heq, if_neg (List.cons_ne_nil _ _)]
    · rename_i heq
      cases heq
      rw [← ih h, List.reverse_cons, List.append_assoc, List.singleton_append]

/-- A line that is read as a field is the line of that field. -/
theorem FieldLine.chars_of_ofLine? {depth : Nat} {l : List Char} {f : FieldLine}
    (h : FieldLine.ofLine? depth l = some f) : f.chars = l := by
  obtain ⟨-, -, rest, hl, hcut⟩ := FieldLine.ofLine?_eq_some h
  rw [FieldLine.chars, hl]
  rcases hcut with ⟨-, htype, htag⟩ | hcut
  · rw [if_pos htag, htype]
  · have hrest : rest = if f.tag = [] then f.type else f.type ++ ' ' :: f.tag :=
      append_eq_of_cutTag hcut
    rw [hrest]
    split
    · rfl
    · rw [List.append_assoc, List.cons_append]

/-- What is read as a field on a rendered line was cut out of it at the right places. -/
theorem Rendered.isCut_of_ofLine? {depth : Nat} {l : List Char} (hl : Rendered l) {f : FieldLine}
    (h : FieldLine.ofLine? depth l = some f) : f.IsCut := by
  obtain ⟨hhead, hname, rest, hrest, hcut⟩ := FieldLine.ofLine?_eq_some h
  cases hl with
  | words hwords =>
    -- Without a backquote on the line there is no tag to cut off.
    have hplain : '\x60' ∉ [' '].intercalate _ := not_mem_words hwords rfl (by decide)
    rw [hrest, List.mem_append, List.mem_cons, not_or, not_or] at hplain
    have hf : f.type = rest ∧ f.tag = [] := by
      rcases hcut with ⟨-, htype, htag⟩ | hcut
      · exact ⟨htype, htag⟩
      · rw [cutTag_of_not_mem hplain.2.2, Prod.mk.injEq] at hcut
        exact ⟨hcut.1.symm, hcut.2.symm⟩
    exact ⟨hplain.1, hf.1 ▸ hplain.2.2, Or.inl hf.2⟩
  | @column name type tag hname' htype htag =>
    -- Names and types hold no space, so the line is cut where it was put together.
    rw [List.append_assoc, List.cons_append] at hrest
    obtain ⟨hn, hr⟩ := append_cons_inj (hname'.not_mem rfl) hname hrest
    obtain ⟨ts, hts⟩ := List.head?_eq_some_iff.mp htag.head
    have hf : type = f.type ∧ tag = f.tag := by
      rcases hcut with ⟨hlast, -, -⟩ | hcut
      · rw [← hr, List.append_cons, getLast?_tagText htag] at hlast
        exact absurd hlast (by decide)
      · rw [← hr, hts, cutTag_append (htype.not_mem rfl), Prod.mk.injEq, ← hts] at hcut
        exact hcut
    rw [hn] at hname'
    rw [hf.1] at htype
    rw [hf.2] at htag
    exact ⟨hname'.not_mem rfl, htype.not_mem rfl, Or.inr htag.head⟩
  | closing => exact absurd rfl hhead

/-! ## Alignment -/

/-- A laid-out line: it fits between newlines, and compacts to the line it was laid out from. -/
structure LaidOut (l laid : List Char) : Prop where
  compact : compactLine laid = l
  isLine : IsLine laid

theorem isLine_indentLine {l : List Char} (h : IsLine l) (hne : l ≠ []) (depth : Nat) :
    IsLine (indentLine depth l) := by
  refine ⟨?_, ?_⟩
  · rw [indentLine, List.mem_append, List.mem_replicate]
    rintro (⟨-, hc⟩ | hc)
    · exact absurd hc (by decide)
    · exact h.noNewline hc
  · rw [indentLine, List.getLast?_append_of_ne_nil _ hne]
    exact h.noReturn

theorem IsCompactLine.laidOut {l : List Char} (h : IsCompactLine l) (depth : Nat) :
    LaidOut l (indentLine depth l) :=
  ⟨by rw [compactLine_indentLine, h.compact], isLine_indentLine h.isLine h.ne_nil depth⟩

/-- More spaces before the tag, where there is one already, are laid out. -/
theorem laidOut_of_squeeze_eq {pre pre' tag : List Char} (h : IsCompactLine (pre ++ tag))
    (hpre : '\x60' ∉ pre) (htag : tag = [] ∨ tag.head? = some '\x60')
    (hchars : ∀ c ∈ pre', c ∈ pre ∨ c = ' ') (hsqueeze : squeeze pre' = squeeze pre)
    (hfirst : (pre' ++ tag).head? = (pre ++ tag).head?)
    (hlast : (pre' ++ tag).getLast? = (pre ++ tag).getLast?) (depth : Nat) :
    LaidOut (pre ++ tag) (indentLine depth (trimEnd (pre' ++ tag))) := by
  have hpre' : '\x60' ∉ pre' := fun hc => (hchars _ hc).elim hpre (by decide)
  have hlast' : ∀ c, (pre' ++ tag).getLast? = some c → isBlank c = false := hlast ▸ h.last
  have hnewline : '\n' ∉ pre' ++ tag := by
    intro hc
    rcases List.mem_append.mp hc with hc | hc
    · rcases hchars _ hc with hc | hc
      · exact h.noNewline (List.mem_append_left tag hc)
      · exact absurd hc (by decide)
    · exact h.noNewline (List.mem_append_right pre hc)
  have hne : pre' ++ tag ≠ [] := by
    intro hnil
    rw [hnil, List.head?_nil] at hfirst
    exact h.ne_nil (List.head?_eq_none_iff.mp hfirst.symm)
  rw [trimEnd, trimEndWhere_eq_self hlast']
  refine ⟨?_, isLine_indentLine ⟨hnewline, ?_⟩ hne depth⟩
  · rw [compactLine_indentLine, compactLine_append hpre' htag (hfirst ▸ h.first) hlast', hsqueeze,
      ← compactLine_append hpre htag h.first h.last, h.compact]
  · rw [hlast]
    exact h.isLine.noReturn

/-- A field line with its name and its type filled up to a width each, unless nothing follows. -/
def FieldLine.aligned (nameWidth typeWidth : Nat) (f : FieldLine) : List Char :=
  if f.tag.isEmpty then padTo nameWidth f.name ++ ' ' :: f.type
  else padTo nameWidth f.name ++ ' ' :: padTo typeWidth f.type ++ ' ' :: f.tag

theorem alignSection_eq (depth : Nat) (fs : List FieldLine) :
    ∃ nameWidth typeWidth, alignSection depth fs =
      fs.map fun f => indentLine depth (trimEnd (f.aligned nameWidth typeWidth)) :=
  ⟨_, _, rfl⟩

theorem squeeze_padTo (width : Nat) (as bs : List Char) :
    squeeze (padTo width as ++ ' ' :: bs) = squeeze (as ++ ' ' :: bs) :=
  squeeze_fill as bs _

theorem mem_padTo {c : Char} {width : Nat} {cs : List Char} (h : c ∈ padTo width cs) :
    c ∈ cs ∨ c = ' ' := by
  rcases List.mem_append.mp h with h | h
  · exact Or.inl h
  · exact Or.inr (List.eq_of_mem_replicate h)

/-- A name filled up with spaces is laid out together with the rest of its line. -/
theorem laidOut_padTo {name rest rest' tag : List Char}
    (h : IsCompactLine (name ++ ' ' :: rest ++ tag)) (hname : name ≠ [])
    (hpre : '\x60' ∉ name ++ ' ' :: rest) (htag : tag = [] ∨ tag.head? = some '\x60')
    (hchars : ∀ c ∈ rest', c ∈ rest ∨ c = ' ')
    (hsqueeze : squeeze (name ++ ' ' :: rest') = squeeze (name ++ ' ' :: rest))
    (hlast : (' ' :: (rest' ++ tag)).getLast? = (' ' :: (rest ++ tag)).getLast?)
    (width depth : Nat) :
    LaidOut (name ++ ' ' :: rest ++ tag)
      (indentLine depth (trimEnd (padTo width name ++ ' ' :: rest' ++ tag))) := by
  refine laidOut_of_squeeze_eq h hpre htag ?_ ?_ ?_ ?_ depth
  · intro c hc
    rw [List.mem_append, List.mem_cons]
    rcases List.mem_append.mp hc with hc | hc
    · exact (mem_padTo hc).imp_left Or.inl
    · rcases List.mem_cons.mp hc with hc | hc
      · exact Or.inr hc
      · exact (hchars c hc).imp_left fun hc => Or.inr (Or.inr hc)
  · rw [squeeze_padTo, hsqueeze]
  · rw [padTo, List.append_assoc, List.append_assoc, List.append_assoc,
      List.head?_append_of_ne_nil _ hname, List.head?_append_of_ne_nil _ hname]
  · rw [List.append_assoc, List.append_assoc, List.cons_append, List.cons_append,
      List.getLast?_append_of_ne_nil _ (List.cons_ne_nil _ _), hlast,
      List.getLast?_append_of_ne_nil _ (List.cons_ne_nil _ _)]

theorem FieldLine.name_ne_nil {f : FieldLine} (h : IsCompactLine f.chars) : f.name ≠ [] := by
  intro hname
  have hfirst : f.chars.head? = some ' ' := by
    unfold FieldLine.chars
    rw [hname]
    split
    · rfl
    · rfl
  exact absurd (h.first _ hfirst) (by decide)

/-- Fields are laid out by alignment, whatever the widths. -/
theorem FieldLine.laidOut_aligned {f : FieldLine} (hcut : f.IsCut) (hf : IsCompactLine f.chars)
    (nameWidth typeWidth depth : Nat) :
    LaidOut f.chars (indentLine depth (trimEnd (f.aligned nameWidth typeWidth))) := by
  have hname := name_ne_nil hf
  -- Without a tag only the name is filled up, since nothing comes after the type.
  by_cases htag : f.tag = []
  · have hchars : f.chars = f.name ++ ' ' :: f.type ++ [] := by
      rw [FieldLine.chars, if_pos htag, List.append_nil]
    have haligned : f.aligned nameWidth typeWidth =
        padTo nameWidth f.name ++ ' ' :: f.type ++ [] := by
      rw [FieldLine.aligned, if_pos (List.isEmpty_iff.mpr htag), List.append_nil]
    have hpre : '\x60' ∉ f.name ++ ' ' :: f.type := by
      simpa using ⟨hcut.name, hcut.type⟩
    rw [hchars] at hf ⊢
    rw [haligned]
    exact laidOut_padTo hf hname hpre (Or.inl rfl) (fun c hc => Or.inl hc) rfl rfl nameWidth depth
  · have hchars : f.chars = f.name ++ ' ' :: (f.type ++ [' ']) ++ f.tag := by
      rw [FieldLine.chars, if_neg htag]
      simp
    have haligned : f.aligned nameWidth typeWidth =
        padTo nameWidth f.name ++ ' ' :: (padTo typeWidth f.type ++ [' ']) ++ f.tag := by
      rw [FieldLine.aligned, if_neg fun h => htag (List.isEmpty_iff.mp h)]
      simp
    have hpre : '\x60' ∉ f.name ++ ' ' :: (f.type ++ [' ']) := by
      simpa using ⟨hcut.name, hcut.type⟩
    have hsqueeze : squeeze (f.name ++ ' ' :: (padTo typeWidth f.type ++ [' '])) =
        squeeze (f.name ++ ' ' :: (f.type ++ [' '])) := by
      have h := squeeze_fill (f.name ++ ' ' :: f.type) [] (typeWidth - f.type.length)
      simpa only [padTo, List.append_assoc, List.cons_append] using h
    have hlast : (' ' :: (padTo typeWidth f.type ++ [' '] ++ f.tag)).getLast? =
        (' ' :: (f.type ++ [' '] ++ f.tag)).getLast? := by
      show ((' ' :: (padTo typeWidth f.type ++ [' '])) ++ f.tag).getLast? =
        ((' ' :: (f.type ++ [' '])) ++ f.tag).getLast?
      rw [List.getLast?_append_of_ne_nil _ htag, List.getLast?_append_of_ne_nil _ htag]
    rw [hchars] at hf ⊢
    rw [haligned]
    refine laidOut_padTo hf hname hpre hcut.tag ?_ hsqueeze hlast nameWidth depth
    intro c hc
    rw [List.mem_append]
    rcases List.mem_append.mp hc with hc | hc
    · exact (mem_padTo hc).imp_left Or.inl
    · exact Or.inr (List.mem_singleton.mp hc)

/-! ## Indentation -/

theorem alignSection_laidOut {fs : List FieldLine}
    (h : ∀ f ∈ fs, f.IsCut ∧ IsCompactLine f.chars) (depth : Nat) :
    List.Forall₂ LaidOut (fs.map FieldLine.chars) (alignSection depth fs) := by
  obtain ⟨nameWidth, typeWidth, heq⟩ := alignSection_eq depth fs
  rw [heq, List.forall₂_map_left_iff, List.forall₂_map_right_iff, List.forall₂_same]
  intro f hf
  exact f.laidOut_aligned (h f hf).1 (h f hf).2 nameWidth typeWidth depth

/-- Rendered lines are laid out one by one and in order, after the fields that wait for the end of
their section. -/
theorem indentLines_laidOut {ls : List (List Char)} (hls : ∀ l ∈ ls, Rendered l) (depth : Nat)
    (waiting : List FieldLine) (hwaiting : ∀ f ∈ waiting, f.IsCut ∧ IsCompactLine f.chars) :
    List.Forall₂ LaidOut (waiting.map FieldLine.chars ++ ls) (indentLines depth waiting ls) := by
  -- Both the depth and the waiting fields change from line to line.
  induction ls generalizing depth waiting with
  | nil =>
    rw [List.append_nil, indentLines]
    exact alignSection_laidOut hwaiting depth
  | cons l ls ih =>
    have hl : Rendered l := hls l List.mem_cons_self
    have ih := ih fun m hm => hls m (List.mem_cons_of_mem l hm)
    rw [indentLines, hl.isCompactLine.trim_eq]
    cases hf : FieldLine.ofLine? depth l with
    | some f =>
      have hcut : f.IsCut := hl.isCut_of_ofLine? hf
      have hchars : f.chars = l := FieldLine.chars_of_ofLine? hf
      have hwaiting' : ∀ g ∈ waiting ++ [f], g.IsCut ∧ IsCompactLine g.chars := by
        rw [List.forall_mem_append, List.forall_mem_singleton, hchars]
        exact ⟨hwaiting, hcut, hl.isCompactLine⟩
      have hmap : waiting.map FieldLine.chars ++ l :: ls =
          (waiting ++ [f]).map FieldLine.chars ++ ls := by
        rw [List.map_append, List.map_singleton, hchars, List.append_assoc, List.singleton_append]
      dsimp only
      rw [hmap]
      -- A line that opens a struct ends its section; any other waits with those before it.
      split
      · exact List.rel_append (alignSection_laidOut hwaiting' depth) (ih (depth + 1) [] nofun)
      · exact ih depth (waiting ++ [f]) hwaiting'
    | none =>
      exact List.rel_append (alignSection_laidOut hwaiting depth)
        (.cons (hl.isCompactLine.laidOut _) (ih _ [] nofun))

/-! ## Declarations -/

theorem Rendered.ne_nil_of_laidOut {l laid : List Char} (hl : Rendered l) (h : LaidOut l laid) :
    laid ≠ [] := by
  rintro rfl
  exact hl.isCompactLine.ne_nil h.compact.symm

theorem exists_eq_append_of_forall₂ {r : List Char → List Char → Prop} {l : List Char}
    {ls ms : List (List Char)} (h : List.Forall₂ r (ls ++ [l]) ms) :
    ∃ ls' l', ms = ls' ++ [l'] ∧ List.Forall₂ r ls ls' ∧ r l l' := by
  induction ls generalizing ms with
  | nil =>
    obtain ⟨l', ms', hl', hnil, rfl⟩ := List.forall₂_cons_left_iff.mp h
    cases hnil
    exact ⟨[], l', rfl, .nil, hl'⟩
  | cons m ls ih =>
    obtain ⟨m', ms', hm', hms', rfl⟩ := List.forall₂_cons_left_iff.mp h
    obtain ⟨ls', l', rfl, hls', hl'⟩ := ih hms'
    exact ⟨m' :: ls', l', rfl, .cons hm' hls', hl'⟩

theorem isLine_of_laidOut {ls ls' : List (List Char)} (h : List.Forall₂ LaidOut ls ls') :
    ∀ m ∈ ls', IsLine m := by
  induction h with
  | nil => exact nofun
  | cons h _ ih => exact List.forall_mem_cons.mpr ⟨h.isLine, ih⟩

/-- Lines that are laid out one by one make up a text that compacts to theirs. -/
theorem compactChars_eq {ls ls' : List (List Char)} {l l' : List Char} (hl : Rendered l)
    (hls' : List.Forall₂ LaidOut ls ls') (hl' : LaidOut l l') (k : Nat) :
    compactChars (unlines ls' ++ l' ++ List.replicate k '\n') = unlines ls ++ l := by
  have hcompact : ls'.map compactLine = ls := by
    clear hl'
    induction hls' with
    | nil => rfl
    | cons h _ ih => rw [List.map_cons, h.compact, ih]
  rw [compactChars,
    lines_intercalate (isLine_of_laidOut hls') hl'.isLine (hl.ne_nil_of_laidOut hl') k,
    List.map_append, List.map_cons, hcompact, hl'.compact, List.map_replicate,
    show compactLine [] = [] from rfl, intercalate_newline_append_replicate,
    dropFinalNewlines_append hl.isCompactLine.noNewline hl.isCompactLine.ne_nil]

theorem lines_rendered {ls : List (List Char)} {l : List Char} (hls : ∀ m ∈ ls, Rendered m)
    (hl : Rendered l) : lines (unlines ls ++ l) = ls ++ [l] := by
  have h := lines_intercalate (fun m hm => (hls m hm).isCompactLine.isLine)
    hl.isCompactLine.isLine hl.isCompactLine.ne_nil 0
  rwa [List.replicate_zero, List.append_nil] at h

/-- Rendered lines are laid out one by one, and the last of them ends the text. -/
theorem indentChars_rendered {ls : List (List Char)} {l : List Char} (hls : ∀ m ∈ ls, Rendered m)
    (hl : Rendered l) : ∃ ls' l', indentLines 0 [] (ls ++ [l]) = ls' ++ [l'] ∧
      List.Forall₂ LaidOut ls ls' ∧ LaidOut l l' ∧
      indentChars (unlines ls ++ l) = unlines ls' ++ l' := by
  have hall : ∀ m ∈ ls ++ [l], Rendered m :=
    List.forall_mem_append.mpr ⟨hls, List.forall_mem_singleton.mpr hl⟩
  obtain ⟨ls', l', hindent, hls', hl'⟩ :=
    exists_eq_append_of_forall₂ (indentLines_laidOut hall 0 [] nofun)
  refine ⟨ls', l', hindent, hls', hl', ?_⟩
  have h := dropFinalNewlines_append hl'.isLine.noNewline (hl.ne_nil_of_laidOut hl')
    (unlines ls') 1
  rw [indentChars, lines_rendered hls hl, hindent, unlines_append, unlines_cons, unlines_nil]
  rwa [List.append_assoc] at h

/-- Rendered lines, laid out and with any number of newlines behind them, compact to themselves. -/
theorem compactChars_indentChars {ls : List (List Char)} {l : List Char}
    (hls : ∀ m ∈ ls, Rendered m) (hl : Rendered l) (k : Nat) :
    compactChars (indentChars (unlines ls ++ l) ++ List.replicate k '\n') = unlines ls ++ l := by
  obtain ⟨ls', l', -, hls', hl', hchars⟩ := indentChars_rendered hls hl
  rw [hchars, compactChars_eq hl hls' hl']

/-- The lines of the indented layout of rendered text are the lines that were laid out. -/
theorem lines_indentChars {ls : List (List Char)} {l : List Char} (hls : ∀ m ∈ ls, Rendered m)
    (hl : Rendered l) :
    lines (indentChars (unlines ls ++ l)) = indentLines 0 [] (ls ++ [l]) := by
  obtain ⟨ls', l', hindent, hls', hl', hchars⟩ := indentChars_rendered hls hl
  have h := lines_intercalate (isLine_of_laidOut hls') hl'.isLine (hl.ne_nil_of_laidOut hl') 0
  rw [hchars, hindent]
  rwa [List.replicate_zero, List.append_nil] at h

/-- Compacting undoes indenting on every declaration that can be rendered, also if newlines were
added in between, whatever characters the names are made of. -/
theorem compact_indent_text {maxDepth : Nat} {root : Node} {d : Declaration}
    (hnames : ∀ x ∈ treeNodes root, x.2.name ≠ "") (h : declaration maxDepth root = .ok d) :
    compact (indent d.text) = d.text ∧
      ∀ k, compact (indent d.text ++ String.ofList (List.replicate k '\n')) = d.text := by
  -- Names that are not empty have identifiers that are not, and these are words.
  have hname : IsWord d.name.toList := by
    obtain ⟨b, -, hd⟩ := bind_eq_ok_iff.mp h
    cases hd
    exact isWord_identifier (hnames _ (mem_fieldNodes_self _ root))
  have hheads : ∀ head ∈ d.heads, IsWord head.1.toList ∧ head.2.PlainKeys := by
    intro head hhead
    obtain ⟨⟨x, hx, hx'⟩, hplain⟩ := headOf_of_declaration h head hhead
    exact ⟨hx' ▸ isWord_identifier (hnames x hx), hplain⟩
  obtain ⟨hleading, hlast⟩ := Declaration.rendered hname hheads
  have hchars : ∀ k, compactChars (indentChars d.chars ++ List.replicate k '\n') = d.chars := by
    rw [Declaration.chars_eq]
    exact compactChars_indentChars hleading hlast
  have htext : ∀ k, compact (indent d.text ++ String.ofList (List.replicate k '\n')) = d.text := by
    intro k
    rw [compact, indent, Declaration.text, String.toList_append, String.toList_ofList,
      String.toList_ofList, String.toList_ofList, hchars]
  refine ⟨?_, htext⟩
  have hzero := htext 0
  rwa [List.replicate_zero, String.ofList_nil, String.append_empty] at hzero

/-- The schema of a group with a column in it, under names that try to look like layout. -/
def oddlyNamedSchema : Node :=
  { name := "a \x7b", children := [
    { name := "b\n\x7d \x60", repetitionType := some .optional, children := [
      { name := "  c\td", physicalCode := some 1 }] }] }

theorem compact_indent_text_oddlyNamed : ∃ d, declaration 2 oddlyNamedSchema = .ok d ∧
    (∀ x ∈ treeNodes oddlyNamedSchema, x.2.name ≠ "") ∧ compact (indent d.text) = d.text ∧
      ∀ k, compact (indent d.text ++ String.ofList (List.replicate k '\n')) = d.text := by
  have hnames : ∀ x ∈ treeNodes oddlyNamedSchema, x.2.name ≠ "" := by decide
  exact ⟨_, rfl, hnames, @compact_indent_text 2 _ _ hnames rfl⟩

end ParquetStruct.Struct
