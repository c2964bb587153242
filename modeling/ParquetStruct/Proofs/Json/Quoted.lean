/-
# ParquetStruct.Proofs.Json.Quoted — the grammar of string literals.

Between its quotes a string literal spells code points, each of them as a character or as an escape.
The text of the literal has a character for each code point, or for two halves of a surrogate pair
that stand next to each other; no text has half a pair alone.  Scanning finds what is spelled, and
texts come back from the literals they are written as.
-/
import ParquetStruct.Json.Quoted
import Mathlib.Data.List.Basic

namespace ParquetStruct.Json

/-! ## The grammar -/

/-- The spellings of a code point: a character that needs no escape, an escape of one letter, or
four hexadecimal digits. -/
inductive SpellsCode : Nat → List Char → Prop
  | plain {c : Char} (hquote : c ≠ '"') (hslash : c ≠ '\\') (hcontrol : ¬c.toNat < 0x20) :
      SpellsCode c.toNat [c]
  | letter {e c : Char} (h : letterEscape? e = some c) : SpellsCode c.toNat ['\\', e]
  | hex {a b c d : Char} {n : Nat} (h : hex4? a b c d = some n) :
      SpellsCode n ['\\', 'u', a, b, c, d]

/-- The spellings of code points in a row. -/
inductive SpellsCodes : List Nat → List Char → Prop
  | nil : SpellsCodes [] []
  | cons {n : Nat} {ns : List Nat} {ds cs : List Char} (hcode : SpellsCode n ds)
      (hcodes : SpellsCodes ns cs) : SpellsCodes (n :: ns) (ds ++ cs)

/-- The text of code points, if no half of a surrogate pair stands alone. -/
inductive Joins : List Nat → List Char → Prop
  | nil : Joins [] []
  | single {n : Nat} {ns : List Nat} {cs : List Char} (hhigh : isHighSurrogate n = false)
      (hlow : isLowSurrogate n = false) (hjoins : Joins ns cs) :
      Joins (n :: ns) (Char.ofNat n :: cs)
  | pair {h l : Nat} {ns : List Nat} {cs : List Char} (hhigh : isHighSurrogate h = true)
      (hlow : isLowSurrogate l = true) (hjoins : Joins ns cs) :
      Joins (h :: l :: ns) (Char.ofNat (0x10000 + 0x400 * (h - 0xd800) + (l - 0xdc00)) :: cs)

/-- What stands between the quotes of a string literal, given its text. -/
inductive SpellsString : Option String → List Char → Prop
  | text {s : String} {ns : List Nat} {cs : List Char} (hcodes : SpellsCodes ns cs)
      (hjoins : Joins ns s.toList) : SpellsString (some s) cs
  | noText {ns : List Nat} {cs : List Char} (hcodes : SpellsCodes ns cs)
      (hjoins : ∀ ds, ¬Joins ns ds) : SpellsString none cs

/-! ## Code points -/

theorem letterEscape?_u : letterEscape? 'u' = none := by decide

/-- What is scanned of a string literal spells code points, up to the closing quote. -/
theorem scanCodes_sound {seen : List Nat} {cs : List Char} {codes : List Nat} {rest : List Char}
    (h : scanCodes seen cs = some (codes, rest)) :
    ∃ ns ds, SpellsCodes ns ds ∧ codes = seen.reverse ++ ns ∧ cs = ds ++ '"' :: rest := by
  -- A scanned code point is the last one seen, and the first of those that are spelled.
  have hcons {n : Nat} {ns seen codes : List Nat} (h : codes = (n :: seen).reverse ++ ns) :
      codes = seen.reverse ++ n :: ns := by
    rw [h, List.reverse_cons, List.append_assoc, List.singleton_append]
  fun_induction scanCodes seen cs with
  | case1 => cases h
  | case2 seen rest =>
    cases h
    exact ⟨[], [], .nil, (List.append_nil _).symm, rfl⟩
  | case3 seen a b c d rest n hn ih =>
    obtain ⟨ns, ds, hcodes, heq, rfl⟩ := ih h
    exact ⟨n :: ns, _, .cons (.hex hn) hcodes, hcons heq, rfl⟩
  | case4 => cases h
  | case5 seen e rest _ c hc ih =>
    obtain ⟨ns, ds, hcodes, heq, rfl⟩ := ih h
    exact ⟨c.toNat :: ns, _, .cons (.letter hc) hcodes, hcons heq, rfl⟩
  | case6 => cases h
  | case7 => cases h
  | case8 seen c rest hquote _ _ hplain ih =>
    obtain ⟨ns, ds, hcodes, heq, rfl⟩ := ih h
    simp only [Bool.or_eq_true, decide_eq_true_eq, not_or] at hplain
    exact ⟨c.toNat :: ns, _, .cons (.plain hquote hplain.1 hplain.2) hcodes, hcons heq, rfl⟩

/-- A spelled code point is scanned. -/
theorem scanCodes_append {n : Nat} {ds : List Char} (h : SpellsCode n ds) (seen : List Nat)
    (rest : List Char) : scanCodes seen (ds ++ rest) = scanCodes (n :: seen) rest := by
  cases h with
  | @plain c hquote hslash hcontrol =>
    show scanCodes seen (c :: rest) = _
    rw [scanCodes]
    -- What is left to show is that none of the patterns before the last one applies.
    · rw [if_neg (by simp [hslash, hcontrol])]
    · exact hquote
    · rintro _ _ _ _ _ rfl -
      exact hslash rfl
    · rintro _ _ rfl -
      exact hslash rfl
  | @letter e c hc =>
    show scanCodes seen ('\\' :: e :: rest) = _
    rw [scanCodes, hc]
    rintro _ _ _ _ _ rfl -
    rw [letterEscape?_u] at hc
    cases hc
  | @hex a b c d n hn =>
    show scanCodes seen ('\\' :: 'u' :: a :: b :: c :: d :: rest) = _
    rw [scanCodes, hn]

theorem scanCodes_complete {ns : List Nat} {ds : List Char} (h : SpellsCodes ns ds)
    (seen : List Nat) (rest : List Char) :
    scanCodes seen (ds ++ '"' :: rest) = some (seen.reverse ++ ns, rest) := by
  induction h generalizing seen with
  | nil => simp [scanCodes]
  | cons hcode _ ih =>
    rw [List.append_assoc, scanCodes_append hcode, ih, List.reverse_cons, List.append_assoc,
      List.singleton_append]

/-! ## Texts -/

theorem joins_of_joinCodes {seen : List Char} {ns : List Nat} {cs : List Char}
    (h : joinCodes seen ns = some cs) : ∃ ds, Joins ns ds ∧ cs = seen.reverse ++ ds := by
  have hcons {c : Char} {seen cs ds : List Char} (h : cs = (c :: seen).reverse ++ ds) :
      cs = seen.reverse ++ c :: ds := by
    rw [h, List.reverse_cons, List.append_assoc, List.singleton_append]
  fun_induction joinCodes seen ns with
  | case1 seen =>
    cases h
    exact ⟨[], .nil, (List.append_nil _).symm⟩
  | case2 seen a b ns hhigh hlow ih =>
    obtain ⟨ds, hjoins, heq⟩ := ih h
    exact ⟨_, .pair hhigh hlow hjoins, hcons heq⟩
  | case3 => cases h
  | case4 => cases h
  | case5 seen n m ns hhigh hlow ih =>
    obtain ⟨ds, hjoins, heq⟩ := ih h
    exact ⟨_, .single (by simpa using hhigh) (by simpa using hlow) hjoins, hcons heq⟩
  | case6 => cases h
  | case7 seen n hsurrogate =>
    cases h
    rw [Bool.or_eq_true, not_or, Bool.not_eq_true, Bool.not_eq_true] at hsurrogate
    exact ⟨_, .single hsurrogate.1 hsurrogate.2 .nil, hcons (List.append_nil _).symm⟩

theorem joinCodes_of_joins {ns : List Nat} {ds : List Char} (h : Joins ns ds) (seen : List Char) :
    joinCodes seen ns = some (seen.reverse ++ ds) := by
  induction h generalizing seen with
  | nil => simp [joinCodes]
  | @single n ns cs hhigh hlow hjoins ih =>
    cases ns with
    | nil =>
      cases hjoins
      simp [joinCodes, hhigh, hlow]
    | cons m ns =>
      rw [joinCodes, hhigh, hlow, if_neg Bool.false_ne_true, if_neg Bool.false_ne_true, ih,
        List.reverse_cons, List.append_assoc, List.singleton_append]
  | pair hhigh hlow _ ih =>
    rw [joinCodes, if_pos hhigh, if_pos hlow, ih, List.reverse_cons, List.append_assoc,
      List.singleton_append]

/-- Joining code points finds their text, if they have one. -/
theorem joinCodes_eq_some_iff {ns : List Nat} {ds : List Char} :
    joinCodes [] ns = some ds ↔ Joins ns ds := by
  constructor
  · intro h
    obtain ⟨ds', hjoins, rfl⟩ := joins_of_joinCodes h
    exact hjoins
  · intro h
    exact joinCodes_of_joins h []

/-! ## Literals -/

/-- What is scanned as a string literal spells it. -/
theorem scanQuoted_sound {cs : List Char} {s : Option String} {rest : List Char}
    (h : scanQuoted cs = some (s, rest)) : ∃ ds, SpellsString s ds ∧ cs = ds ++ '"' :: rest := by
  obtain ⟨⟨ns, rest'⟩, hscan, he⟩ := Option.map_eq_some_iff.mp h
  obtain ⟨ns', ds, hcodes, hns, rfl⟩ := scanCodes_sound hscan
  cases hns
  cases hjoin : joinCodes [] ns' with
  | none =>
    have he : s = none ∧ rest' = rest := by
      simpa [hjoin, eq_comm] using he
    rw [he.1, ← he.2]
    refine ⟨ds, .noText hcodes fun cs hjoins => ?_, rfl⟩
    rw [joinCodes_eq_some_iff.mpr hjoins] at hjoin
    cases hjoin
  | some cs =>
    have he : s = some (String.ofList cs) ∧ rest' = rest := by
      simpa [hjoin, eq_comm] using he
    rw [he.1, ← he.2]
    refine ⟨ds, .text hcodes ?_, rfl⟩
    rw [String.toList_ofList]
    exact joinCodes_eq_some_iff.mp hjoin

/-- A string literal is scanned to its closing quote. -/
theorem scanQuoted_append {s : Option String} {ds : List Char} (h : SpellsString s ds)
    (rest : List Char) : scanQuoted (ds ++ '"' :: rest) = some (s, rest) := by
  cases h with
  | text hcodes hjoins =>
    rw [scanQuoted, scanCodes_complete hcodes, Option.map_some]
    dsimp only
    rw [List.reverse_nil, List.nil_append, joinCodes_eq_some_iff.mpr hjoins, Option.map_some,
      String.ofList_toList]
  | @noText ns _ hcodes hjoins =>
    have hnone : joinCodes [] ns = none := by
      rw [Option.eq_none_iff_forall_ne_some]
      intro cs hcs
      exact hjoins cs (joinCodes_eq_some_iff.mp hcs)
    rw [scanQuoted, scanCodes_complete hcodes, Option.map_some]
    dsimp only
    rw [List.reverse_nil, List.nil_append, hnone, Option.map_none]

/-! ## Written texts -/

theorem hex4?_control : ∀ n < 32, hex4? '0' '0' (hexDigit (n / 16)) (hexDigit (n % 16)) = some n := by
  decide

/-- A character is spelled by what it is written as. -/
theorem spellsCode_quoteChar (c : Char) : SpellsCode c.toNat (quoteChar c) := by
  -- Seven characters have a spelling of their own, the other control characters are numbered.
  by_cases hquote : c = '"'
  · rw [hquote]
    exact .letter rfl
  by_cases hslash : c = '\\'
  · rw [hslash]
    exact .letter rfl
  by_cases hb : c = '\x08'
  · rw [hb]
    exact .letter rfl
  by_cases hf : c = '\x0c'
  · rw [hf]
    exact .letter rfl
  by_cases hn : c = '\n'
  · rw [hn]
    exact .letter rfl
  by_cases hr : c = '\r'
  · rw [hr]
    exact .letter rfl
  by_cases ht : c = '\t'
  · rw [ht]
    exact .letter rfl
  rw [quoteChar, if_neg hquote, if_neg hslash, if_neg hb, if_neg hf, if_neg hn, if_neg hr,
    if_neg ht]
  by_cases hcontrol : c.toNat < 0x20
  · rw [if_pos hcontrol]
    exact .hex (hex4?_control _ hcontrol)
  · rw [if_neg hcontrol]
    exact .plain hquote hslash hcontrol

theorem spellsCodes_quoted (cs : List Char) :
    SpellsCodes (cs.map Char.toNat) (cs.flatMap quoteChar) := by
  induction cs with
  | nil => exact .nil
  | cons c cs ih => exact .cons (spellsCode_quoteChar c) ih

theorem not_surrogate (c : Char) :
    isHighSurrogate c.toNat = false ∧ isLowSurrogate c.toNat = false := by
  have hvalid : c.toNat < 0xd800 ∨ 0xdfff < c.toNat ∧ c.toNat < 0x110000 := c.valid
  unfold isHighSurrogate isLowSurrogate
  simp only [Bool.and_eq_false_iff, decide_eq_false_iff_not]
  omega

/-- The code points of characters join to these characters. -/
theorem joins_toNat (cs : List Char) : Joins (cs.map Char.toNat) cs := by
  induction cs with
  | nil => exact .nil
  | cons c cs ih =>
    obtain ⟨hhigh, hlow⟩ := not_surrogate c
    have h := Joins.single hhigh hlow ih
    rwa [Char.ofNat_toNat] at h

/-- A text is spelled by what it is written as. -/
theorem spellsString_quoted (s : String) : SpellsString (some s) (s.toList.flatMap quoteChar) :=
  .text (spellsCodes_quoted s.toList) (joins_toNat s.toList)

end ParquetStruct.Json
