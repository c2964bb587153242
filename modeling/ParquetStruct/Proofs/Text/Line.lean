/-
# ParquetStruct.Proofs.Text.Line — when lines come back as they were put together.

A text is cut into lines and put together again in three ways: every line with a newline after it,
newlines between the lines only, and the second with further newlines at the end.  Lines that hold
no newline and end in no carriage return come back from each of them; and a text without carriage
returns comes back from its lines, unless a newline ends it.  Trimming is settled first: it leaves a
text alone that starts and ends with characters which are to be kept.  At the end stands the width
of ASCII text, which is the same in bytes and in characters.
-/
import ParquetStruct.Text.Line
import Mathlib.Data.List.DropRight

namespace ParquetStruct.Text

variable {p : Char → Bool}

/-! ## Trimming -/

theorem trimEndWhere_eq_rdropWhile (p : Char → Bool) (cs : List Char) :
    trimEndWhere p cs = cs.rdropWhile p := rfl

theorem trimEndWhere_eq_self {cs : List Char} (h : ∀ c, cs.getLast? = some c → p c = false) :
    trimEndWhere p cs = cs := by
  rw [trimEndWhere_eq_rdropWhile, List.rdropWhile_eq_self_iff]
  intro hne
  rw [h _ (List.getLast?_eq_some_getLast hne)]
  exact Bool.false_ne_true

theorem dropWhile_eq_self {cs : List Char} (h : ∀ c, cs.head? = some c → p c = false) :
    cs.dropWhile p = cs := by
  cases cs with
  | nil => rfl
  | cons c cs => rw [List.dropWhile_cons_of_neg (by rw [h c rfl]; exact Bool.false_ne_true)]

/-- A text whose first and last characters are to be kept is not trimmed. -/
theorem trimWhere_eq_self {cs : List Char} (hfirst : ∀ c, cs.head? = some c → p c = false)
    (hlast : ∀ c, cs.getLast? = some c → p c = false) : trimWhere p cs = cs := by
  rw [trimWhere, dropWhile_eq_self hfirst, trimEndWhere_eq_self hlast]

/-- What is to be cut off the front makes no difference to trimming. -/
theorem trimWhere_append_left {ws : List Char} (h : ∀ c ∈ ws, p c = true) (cs : List Char) :
    trimWhere p (ws ++ cs) = trimWhere p cs := by
  rw [trimWhere, List.dropWhile_append_of_pos h, trimWhere]

/-- What is to be cut off the end makes no difference to trimming the end. -/
theorem trimEndWhere_append_right {ws : List Char} (h : ∀ c ∈ ws, p c = true) (cs : List Char) :
    trimEndWhere p (cs ++ ws) = trimEndWhere p cs := by
  rw [trimEndWhere, List.reverse_append, List.dropWhile_append_of_pos, trimEndWhere]
  intro c hc
  exact h c (List.mem_reverse.mp hc)

/-- What is trimmed ends in a character that is to be kept, if in any. -/
theorem eq_false_of_getLast?_trimEndWhere {c : Char} {cs : List Char}
    (h : (trimEndWhere p cs).getLast? = some c) : p c = false := by
  rw [trimEndWhere, List.getLast?_reverse] at h
  have hhead := List.head?_dropWhile_not p cs.reverse
  rwa [h] at hhead

/-- What is trimmed at both ends starts with a character that is to be kept, if with any. -/
theorem eq_false_of_head?_trimWhere {c : Char} {cs : List Char}
    (h : (trimWhere p cs).head? = some c) : p c = false := by
  -- Trimming the end leaves the first character where it is, unless nothing is left.
  have hdrop : (cs.dropWhile p).head? = some c := by
    rw [← trimEndWhere_append p (cs.dropWhile p), List.head?_append, ← trimWhere, h, Option.some_or]
  have hhead := List.head?_dropWhile_not p cs
  rwa [hdrop] at hhead

theorem trimEndWhere_append_cons {c : Char} (h : p c = false) (as bs : List Char) :
    trimEndWhere p (as ++ c :: bs) = as ++ c :: trimEndWhere p bs := by
  have hc : (c :: as.reverse).dropWhile p = c :: as.reverse :=
    List.dropWhile_cons_of_neg (by rw [h]; exact Bool.false_ne_true)
  have hdrop : (bs.reverse ++ c :: as.reverse).dropWhile p =
      bs.reverse.dropWhile p ++ c :: as.reverse := by
    rw [List.dropWhile_append, hc]
    split
    · rename_i hnil
      rw [List.isEmpty_iff.mp hnil, List.nil_append]
    · rfl
  rw [trimEndWhere, List.reverse_append, List.reverse_cons, List.append_assoc,
    List.singleton_append, hdrop, trimEndWhere]
  simp

/-- A character that is to be kept parts a text in two, which are trimmed at one end each. -/
theorem trimWhere_append_cons {c : Char} (h : p c = false) (as bs : List Char) :
    trimWhere p (as ++ c :: bs) = as.dropWhile p ++ c :: trimEndWhere p bs := by
  have hc : (c :: bs).dropWhile p = c :: bs :=
    List.dropWhile_cons_of_neg (by rw [h]; exact Bool.false_ne_true)
  rw [trimWhere, List.dropWhile_append, hc]
  split
  · rename_i hnil
    rw [List.isEmpty_iff.mp hnil, List.nil_append]
    exact trimEndWhere_append_cons h [] bs
  · exact trimEndWhere_append_cons h (as.dropWhile p) bs

/-! ## Cutting at a character -/

theorem takeWhile_append_cons {c : Char} {as : List Char} (h : c ∉ as) (bs : List Char) :
    (as ++ c :: bs).takeWhile (· != c) = as := by
  have has : ∀ d ∈ as, (d != c) = true := fun d hd => bne_iff_ne.mpr fun he => h (he ▸ hd)
  rw [List.takeWhile_append_of_pos has, List.takeWhile_cons_of_neg (by simp), List.append_nil]

theorem dropWhile_append_cons {c : Char} {as : List Char} (h : c ∉ as) (bs : List Char) :
    (as ++ c :: bs).dropWhile (· != c) = c :: bs := by
  have has : ∀ d ∈ as, (d != c) = true := fun d hd => bne_iff_ne.mpr fun he => h (he ▸ hd)
  rw [List.dropWhile_append_of_pos has, List.dropWhile_cons_of_neg (by simp)]

/-- A text is cut at the first place of a character in one way only. -/
theorem append_cons_inj {c : Char} {as as' bs bs' : List Char} (h : c ∉ as) (h' : c ∉ as')
    (heq : as ++ c :: bs = as' ++ c :: bs') : as = as' ∧ bs = bs' := by
  have htake := takeWhile_append_cons h bs
  have hdrop := dropWhile_append_cons h bs
  rw [heq, takeWhile_append_cons h'] at htake
  rw [heq, dropWhile_append_cons h'] at hdrop
  exact ⟨htake.symm, (List.tail_eq_of_cons_eq hdrop).symm⟩

/-- A text is cut at the last place of a character in one way only. -/
theorem append_cons_inj_right {c : Char} {as as' bs bs' : List Char} (h : c ∉ bs) (h' : c ∉ bs')
    (heq : as ++ c :: bs = as' ++ c :: bs') : as = as' ∧ bs = bs' := by
  have hreverse : bs.reverse ++ c :: as.reverse = bs'.reverse ++ c :: as'.reverse := by
    simpa using congrArg List.reverse heq
  obtain ⟨hbs, has⟩ :=
    append_cons_inj (mt List.mem_reverse.mp h) (mt List.mem_reverse.mp h') hreverse
  exact ⟨List.reverse_inj.mp has, List.reverse_inj.mp hbs⟩

theorem mem_intercalate {c : Char} {sep : List Char} {ps : List (List Char)}
    (h : c ∈ sep.intercalate ps) : c ∈ sep ∨ ∃ p ∈ ps, c ∈ p := by
  induction ps with
  | nil => cases h
  | cons p ps ih =>
    by_cases hps : ps = []
    · subst hps
      rw [List.intercalate_singleton] at h
      exact Or.inr ⟨p, List.mem_singleton_self p, h⟩
    · rw [List.intercalate_cons_of_ne_nil hps, List.mem_append, List.mem_append] at h
      rcases h with (h | h) | h
      · exact Or.inr ⟨p, List.mem_cons_self, h⟩
      · exact Or.inl h
      · rcases ih h with h | ⟨q, hq, h⟩
        · exact Or.inl h
        · exact Or.inr ⟨q, List.mem_cons_of_mem p hq, h⟩

/-- Lines with a newline after each, and a last line without, are told apart by their text. -/
theorem unlines_append_inj {ls ms : List (List Char)} {l m : List Char}
    (hls : ∀ k ∈ ls, '\n' ∉ k) (hms : ∀ k ∈ ms, '\n' ∉ k) (hl : '\n' ∉ l) (hm : '\n' ∉ m)
    (h : unlines ls ++ l = unlines ms ++ m) : ls = ms ∧ l = m := by
  induction ls generalizing ms with
  | nil =>
    cases ms with
    | nil => exact ⟨rfl, h⟩
    | cons k ms =>
      -- One side has a newline, and the other is a line.
      rw [unlines_nil, List.nil_append, unlines_cons, List.append_assoc] at h
      exact absurd (h ▸ List.mem_append_right k List.mem_cons_self) hl
  | cons k ls ih =>
    cases ms with
    | nil =>
      rw [unlines_nil, List.nil_append, unlines_cons, List.append_assoc] at h
      exact absurd (h ▸ List.mem_append_right k List.mem_cons_self) hm
    | cons k' ms =>
      rw [unlines_cons, unlines_cons, List.append_assoc, List.append_assoc, List.cons_append,
        List.cons_append] at h
      obtain ⟨hk, hrest⟩ :=
        append_cons_inj (hls k List.mem_cons_self) (hms k' List.mem_cons_self) h
      obtain ⟨hlines, hlast⟩ := ih (fun j hj => hls j (List.mem_cons_of_mem k hj))
        (fun j hj => hms j (List.mem_cons_of_mem k' hj)) hrest
      exact ⟨by rw [hk, hlines], hlast⟩

/-! ## Texts with lines in them -/

/-- A list of characters that a text can have as a line before a line end. -/
structure IsLine (l : List Char) : Prop where
  noNewline : '\n' ∉ l
  /-- A carriage return right before the newline would belong to the line end. -/
  noReturn : l.getLast? ≠ some '\r'

theorem isLine_nil : IsLine [] := ⟨List.not_mem_nil, by simp⟩

theorem pieces_cons (c : Char) (cs : List Char) : pieces (c :: cs) = consPiece c (pieces cs) := rfl

theorem consPiece_cons_of_ne {c : Char} (hc : c ≠ '\n') (l : List Char) (ps : List (List Char)) :
    consPiece c (l :: ps) = (c :: l) :: ps := by
  simp [consPiece, hc]

theorem pieces_append_newline {l : List Char} (h : '\n' ∉ l) (cs : List Char) :
    pieces (l ++ '\n' :: cs) = (l ++ ['\n']) :: pieces cs := by
  induction l with
  | nil => simp [pieces_cons, consPiece]
  | cons c l ih =>
    have hc : c ≠ '\n' := fun he => h (he ▸ List.mem_cons_self)
    rw [List.cons_append, pieces_cons, ih fun hm => h (List.mem_cons_of_mem c hm),
      consPiece_cons_of_ne hc]
    rfl

theorem pieces_eq_singleton {l : List Char} (h : '\n' ∉ l) (hne : l ≠ []) : pieces l = [l] := by
  induction l with
  | nil => exact absurd rfl hne
  | cons c l ih =>
    have hc : c ≠ '\n' := fun he => h (he ▸ List.mem_cons_self)
    rw [pieces_cons]
    by_cases hl : l = []
    · rw [hl]
      simp [pieces, consPiece, hc]
    · rw [ih (fun hm => h (List.mem_cons_of_mem c hm)) hl, consPiece_cons_of_ne hc]

theorem chomp_append_newline {l : List Char} (h : l.getLast? ≠ some '\r') :
    chomp (l ++ ['\n']) = l := by
  rcases List.eq_nil_or_concat l with rfl | ⟨l', c, rfl⟩
  · rfl
  · have hc : c ≠ '\r' := by simpa using h
    simp [chomp, hc]

theorem chomp_of_not_mem {l : List Char} (h : '\n' ∉ l) : chomp l = l := by
  unfold chomp
  split
  · rename_i cs heq
    exact absurd (List.mem_reverse.mp (heq ▸ List.mem_cons_self)) h
  · rename_i cs _ heq
    exact absurd (List.mem_reverse.mp (heq ▸ List.mem_cons_self)) h
  · rfl

@[simp] theorem lines_nil : lines [] = [] := rfl

theorem lines_append_newline {l : List Char} (h : IsLine l) (cs : List Char) :
    lines (l ++ '\n' :: cs) = l :: lines cs := by
  rw [lines, pieces_append_newline h.noNewline, List.map_cons, chomp_append_newline h.noReturn,
    lines]

/-- A text without newlines is its own only line. -/
theorem lines_eq_singleton {l : List Char} (h : '\n' ∉ l) (hne : l ≠ []) : lines l = [l] := by
  rw [lines, pieces_eq_singleton h hne, List.map_cons, chomp_of_not_mem h, List.map_nil]

/-- Lines put in front of a text come back in front of its lines. -/
theorem lines_unlines_append {ls : List (List Char)} (h : ∀ l ∈ ls, IsLine l) (cs : List Char) :
    lines (unlines ls ++ cs) = ls ++ lines cs := by
  induction ls with
  | nil => rfl
  | cons l ls ih =>
    rw [unlines_cons, List.append_assoc, List.cons_append,
      lines_append_newline (h l List.mem_cons_self), ih fun m hm => h m (List.mem_cons_of_mem l hm),
      List.cons_append]

/-- A text without carriage returns is lines with a newline after each, and a rest without any. -/
theorem exists_eq_unlines_append {cs : List Char} (h : '\r' ∉ cs) :
    ∃ ls l, cs = unlines ls ++ l ∧ ∀ m ∈ l :: ls, '\n' ∉ m ∧ '\r' ∉ m := by
  induction cs with
  | nil => exact ⟨[], [], rfl, by simp⟩
  | cons c cs ih =>
    rw [List.mem_cons, not_or] at h
    obtain ⟨ls, l, rfl, hls⟩ := ih h.2
    by_cases hc : c = '\n'
    · subst hc
      refine ⟨[] :: ls, l, by simp, ?_⟩
      simpa using hls
    · -- The character belongs to the first line, or to the rest if there is none.
      have hcons : ∀ m, '\n' ∉ m ∧ '\r' ∉ m → '\n' ∉ c :: m ∧ '\r' ∉ c :: m := fun m hm =>
        ⟨List.not_mem_cons_of_ne_of_not_mem (Ne.symm hc) hm.1,
          List.not_mem_cons_of_ne_of_not_mem h.1 hm.2⟩
      cases ls with
      | nil => exact ⟨[], c :: l, rfl, List.forall_mem_singleton.mpr (hcons l (hls l (by simp)))⟩
      | cons m ls =>
        simp only [List.forall_mem_cons] at hls
        refine ⟨(c :: m) :: ls, l, by simp, ?_⟩
        simp only [List.forall_mem_cons]
        exact ⟨hls.1, hcons m hls.2.1, hls.2.2⟩

theorem isLine_of_not_mem {l : List Char} (h : '\n' ∉ l ∧ '\r' ∉ l) : IsLine l :=
  ⟨h.1, fun hlast => h.2 (List.mem_of_getLast? hlast)⟩

/-- The lines of a text without carriage returns hold no character of a line end. -/
theorem not_mem_of_mem_lines {cs : List Char} (h : '\r' ∉ cs) :
    ∀ l ∈ lines cs, '\n' ∉ l ∧ '\r' ∉ l := by
  obtain ⟨ls, l, rfl, hls⟩ := exists_eq_unlines_append h
  obtain ⟨hl, hls⟩ := List.forall_mem_cons.mp hls
  rw [lines_unlines_append fun m hm => isLine_of_not_mem (hls m hm), List.forall_mem_append]
  refine ⟨hls, ?_⟩
  by_cases hnil : l = []
  · rw [hnil]
    exact nofun
  · rw [lines_eq_singleton hl.1 hnil, List.forall_mem_singleton]
    exact hl

/-! ## Newlines at the end -/

/-- A line that is not empty holds the end of a text against the cutting of newlines. -/
theorem dropFinalNewlines_append {l : List Char} (h : '\n' ∉ l) (hne : l ≠ []) (cs : List Char)
    (k : Nat) :
    dropFinalNewlines (cs ++ l ++ List.replicate k '\n') = cs ++ l := by
  rw [dropFinalNewlines, trimEndWhere_append_right, trimEndWhere_eq_self]
  · intro c hc
    rw [List.getLast?_append_of_ne_nil cs hne] at hc
    have hmem : c ∈ l := List.mem_of_getLast? hc
    have hcn : c ≠ '\n' := fun he => h (he ▸ hmem)
    simpa using hcn
  · intro c hc
    simp [List.eq_of_mem_replicate hc]

theorem unlines_replicate_nil (k : Nat) :
    unlines (List.replicate k []) = List.replicate k '\n' := by
  induction k with
  | zero => rfl
  | succ k ih => rw [List.replicate_succ, unlines_cons, ih, List.replicate_succ, List.nil_append]

theorem lines_replicate_newline (k : Nat) :
    lines (List.replicate k '\n') = List.replicate k [] := by
  have hlines : ∀ l ∈ List.replicate k ([] : List Char), IsLine l := by
    intro l hl
    rw [List.eq_of_mem_replicate hl]
    exact isLine_nil
  have h := lines_unlines_append hlines []
  rwa [unlines_replicate_nil, List.append_nil, lines_nil, List.append_nil] at h

/-- Lines with newlines between them come back, and newlines at the end only add empty lines. -/
theorem lines_intercalate {ls : List (List Char)} {l : List Char} (hls : ∀ l ∈ ls, IsLine l)
    (hl : IsLine l) (hne : l ≠ []) (k : Nat) :
    lines (unlines ls ++ l ++ List.replicate k '\n') = ls ++ l :: List.replicate (k - 1) [] := by
  rw [List.append_assoc, lines_unlines_append hls]
  congr 1
  -- The first newline at the end belongs to the last line and adds no line of its own.
  cases k with
  | zero => rw [List.replicate_zero, List.append_nil, lines_eq_singleton hl.noNewline hne]; rfl
  | succ k =>
    rw [List.replicate_succ, lines_append_newline hl, lines_replicate_newline, Nat.add_sub_cancel]

theorem intercalate_newline_append (ls : List (List Char)) (l : List Char) :
    ['\n'].intercalate (ls ++ [l]) = unlines ls ++ l := by
  induction ls with
  | nil => exact List.intercalate_singleton
  | cons m ls ih =>
    rw [List.cons_append, List.intercalate_cons_of_ne_nil (by simp), ih, unlines_cons]
    simp

/-- Empty lines after a line that is not empty are newlines at the end of a text. -/
theorem intercalate_newline_append_replicate (ls : List (List Char)) (l : List Char) (k : Nat) :
    ['\n'].intercalate (ls ++ l :: List.replicate k []) =
      unlines ls ++ l ++ List.replicate k '\n' := by
  induction k generalizing ls l with
  | zero =>
    rw [List.replicate_zero, intercalate_newline_append, List.replicate_zero, List.append_nil]
  | succ k ih =>
    rw [List.replicate_succ, List.append_cons, ih, unlines_append, unlines_cons, unlines_nil,
      List.replicate_succ]
    simp

/-- Lines are empty lines only, or there is a last line that is not empty. -/
theorem eq_replicate_or_exists_append (ls : List (List Char)) :
    (∃ k, ls = List.replicate k []) ∨
      ∃ ms l k, ls = ms ++ l :: List.replicate k [] ∧ l ≠ [] := by
  induction ls with
  | nil => exact Or.inl ⟨0, rfl⟩
  | cons m ls ih =>
    rcases ih with ⟨k, rfl⟩ | ⟨ms, l, k, rfl, hne⟩
    · by_cases hm : m = []
      · exact Or.inl ⟨k + 1, by rw [hm, List.replicate_succ]⟩
      · exact Or.inr ⟨[], m, k, rfl, hm⟩
    · exact Or.inr ⟨m :: ms, l, k, rfl, hne⟩

/-- Lines come back from the text that they are put together to without newlines at its end, except
for the empty lines at the end. -/
theorem exists_lines_dropFinalNewlines {ls : List (List Char)} (h : ∀ l ∈ ls, IsLine l) :
    ∃ k, ls = lines (dropFinalNewlines (['\n'].intercalate ls)) ++ List.replicate k [] := by
  rcases eq_replicate_or_exists_append ls with ⟨k, rfl⟩ | ⟨ms, l, k, rfl, hne⟩
  · have hnewlines : ∀ c ∈ ['\n'].intercalate (List.replicate k []), (c == '\n') = true := by
      intro c hc
      rcases mem_intercalate hc with hc | ⟨m, hm, hc⟩
      · exact beq_iff_eq.mpr (List.mem_singleton.mp hc)
      · rw [List.eq_of_mem_replicate hm] at hc
        cases hc
    refine ⟨k, ?_⟩
    rw [dropFinalNewlines, trimEndWhere_eq_rdropWhile, List.rdropWhile_eq_nil_iff.mpr hnewlines]
    rfl
  · obtain ⟨hms, hl⟩ := List.forall_mem_append.mp h
    have hl : IsLine l := hl l List.mem_cons_self
    have hlines := lines_intercalate hms hl hne 0
    rw [List.replicate_zero, List.append_nil] at hlines
    refine ⟨k, ?_⟩
    rw [intercalate_newline_append_replicate, dropFinalNewlines_append hl.noNewline hne, hlines]
    simp

/-- A text without carriage returns that ends in no newline is its lines with newlines between
them. -/
theorem intercalate_lines {cs : List Char} (hr : '\r' ∉ cs) (hlast : cs.getLast? ≠ some '\n') :
    ['\n'].intercalate (lines cs) = cs := by
  obtain ⟨ls, l, rfl, hls⟩ := exists_eq_unlines_append hr
  obtain ⟨hl, hls⟩ := List.forall_mem_cons.mp hls
  have hline : ∀ m ∈ ls, IsLine m := fun m hm => isLine_of_not_mem (hls m hm)
  by_cases hnil : l = []
  · rcases List.eq_nil_or_concat ls with rfl | ⟨ls, m, rfl⟩
    · rw [hnil]
      rfl
    · -- The last line would have a newline after it.
      rw [hnil, List.concat_eq_append, unlines_append, unlines_cons, unlines_nil] at hlast
      exact absurd (by simp) hlast
  · have hlines := lines_intercalate hline (isLine_of_not_mem hl) hnil 0
    rw [List.replicate_zero, List.append_nil] at hlines
    rw [hlines]
    exact intercalate_newline_append ls l

/-! ## Width -/

theorem utf8Length_append (as bs : List Char) :
    utf8Length (as ++ bs) = utf8Length as + utf8Length bs := by
  induction as with
  | nil => rw [List.nil_append, utf8Length_nil, Nat.zero_add]
  | cons c as ih => rw [List.cons_append, utf8Length_cons, ih, utf8Length_cons, Nat.add_assoc]

/-- A text of ASCII characters. -/
def IsAscii (cs : List Char) : Prop := ∀ c ∈ cs, c.toNat < 128

instance (cs : List Char) : Decidable (IsAscii cs) :=
  decidable_of_iff (cs.all fun c => decide (c.toNat < 128)) <| by
    simp only [List.all_eq_true, decide_eq_true_eq, IsAscii]

theorem IsAscii.append {as bs : List Char} (has : IsAscii as) (hbs : IsAscii bs) :
    IsAscii (as ++ bs) :=
  List.forall_mem_append.mpr ⟨has, hbs⟩

theorem isAscii_replicate {c : Char} (h : c.toNat < 128) (k : Nat) :
    IsAscii (List.replicate k c) := by
  intro d hd
  rwa [List.eq_of_mem_replicate hd]

theorem utf8Size_eq_one {c : Char} (h : c.toNat < 128) : c.utf8Size = 1 := by
  rw [Char.utf8Size_eq_one_iff, UInt32.le_iff_toNat_le]
  exact Nat.le_of_lt_succ h

/-- ASCII characters take one byte each. -/
theorem IsAscii.utf8Length_eq {cs : List Char} (h : IsAscii cs) : utf8Length cs = cs.length := by
  induction cs with
  | nil => rfl
  | cons c cs ih =>
    obtain ⟨hc, hcs⟩ := List.forall_mem_cons.mp h
    rw [utf8Length_cons, utf8Size_eq_one hc, ih hcs, List.length_cons, Nat.add_comm]

/-- An ASCII text that is filled up to a width has it in bytes. -/
theorem IsAscii.utf8Length_padTo {cs : List Char} (h : IsAscii cs) {width : Nat}
    (hwidth : utf8Length cs ≤ width) : utf8Length (padTo width cs) = width := by
  have hpad : IsAscii (padTo width cs) := h.append (isAscii_replicate (by decide) _)
  rw [h.utf8Length_eq] at hwidth
  rw [hpad.utf8Length_eq, length_padTo, Nat.max_eq_left hwidth]

theorem IsAscii.utf8Length_padTo_append_space {cs : List Char} (h : IsAscii cs) {width : Nat}
    (hwidth : utf8Length cs ≤ width) : utf8Length (padTo width cs ++ [' ']) = width + 1 := by
  rw [utf8Length_append, h.utf8Length_padTo hwidth]
  rfl

end ParquetStruct.Text
