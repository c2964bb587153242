/-
# ParquetStruct.Proofs.Json.Number — the grammar of number literals.

A literal is a sign, digits, and perhaps a fraction and an exponent.  Scanning finds nothing else,
and it takes the whole literal where something follows that could not go on with a number.  The
literal of an integer is its digits behind a sign, which denote the integer as long as it fits 64
bits.
-/
import ParquetStruct.Json.Number
import ParquetStruct.Proofs.Text.Decimal
import Mathlib.Data.List.TakeWhile

namespace ParquetStruct.Json

open Text

/-- A text that cannot go on with a number literal that stands before it. -/
structure EndsNumber (cs : List Char) : Prop where
  noDigit : ∀ c, cs.head? = some c → c.isDigit = false
  noPoint : cs.head? ≠ some '.'
  noExponent : cs.head? ≠ some 'e' ∧ cs.head? ≠ some 'E'

theorem endsNumber_nil : EndsNumber [] := ⟨nofun, nofun, nofun, nofun⟩

theorem endsNumber_cons {c : Char} (h : c.isDigit = false ∧ c ≠ '.' ∧ c ≠ 'e' ∧ c ≠ 'E')
    (cs : List Char) : EndsNumber (c :: cs) := by
  refine ⟨?_, mt Option.some.inj h.2.1, mt Option.some.inj h.2.2.1, mt Option.some.inj h.2.2.2⟩
  intro d hd
  rw [← Option.some.inj hd]
  exact h.1

/-- Digits, at least one. -/
structure IsDigits (cs : List Char) : Prop where
  ne_nil : cs ≠ []
  isDigit : ∀ c ∈ cs, c.isDigit = true

theorem IsDigits.exists_eq_cons {cs : List Char} (h : IsDigits cs) :
    ∃ d ds, cs = d :: ds ∧ d.isDigit = true := by
  obtain ⟨d, ds, rfl⟩ := List.exists_cons_of_ne_nil h.ne_nil
  exact ⟨d, ds, rfl, h.isDigit d List.mem_cons_self⟩

namespace Literal

/-! ## The grammar -/

/-- What may stand between the letter of an exponent and its digits. -/
inductive SpellsSign : Bool → List Char → Prop
  | absent : SpellsSign false []
  | plus : SpellsSign false ['+']
  | minus : SpellsSign true ['-']

/-- The texts of an exponent; no exponent has no text. -/
inductive SpellsExponent : Option Exponent → List Char → Prop
  | absent : SpellsExponent none []
  | given {letter : Char} {negative : Bool} {sign digits : List Char}
      (hletter : letter = 'e' ∨ letter = 'E') (hsign : SpellsSign negative sign)
      (hdigits : IsDigits digits) :
      SpellsExponent (some ⟨negative, digits⟩) (letter :: (sign ++ digits))

/-- The text of a fraction, given its digits; no fraction has no text. -/
inductive SpellsFraction : List Char → List Char → Prop
  | absent : SpellsFraction [] []
  | given {digits : List Char} (hdigits : IsDigits digits) : SpellsFraction digits ('.' :: digits)

/-- The text of a literal without its sign: zero stands alone in front of point and exponent. -/
inductive SpellsUnsigned (negative : Bool) : Literal → List Char → Prop
  | mk {whole fraction fs es : List Char} {exponent : Option Exponent} (hwhole : IsDigits whole)
      (hzero : whole.head? = some '0' → whole = ['0']) (hfraction : SpellsFraction fraction fs)
      (hexponent : SpellsExponent exponent es) :
      SpellsUnsigned negative ⟨negative, whole, fraction, exponent⟩ (whole ++ (fs ++ es))

/-- The texts of a literal. -/
inductive Spells : Literal → List Char → Prop
  | positive {n : Literal} {cs : List Char} (h : SpellsUnsigned false n cs) : Spells n cs
  | negative {n : Literal} {cs : List Char} (h : SpellsUnsigned true n cs) : Spells n ('-' :: cs)

/-! ## What scanning finds -/

theorem scanDigits_sound {cs digits rest : List Char} (h : scanDigits cs = some (digits, rest)) :
    IsDigits digits ∧ cs = digits ++ rest := by
  unfold scanDigits at h
  split at h
  · cases h
  · rename_i hne
    cases h
    exact ⟨⟨hne, fun c hc => List.mem_takeWhile_imp hc⟩,
      List.takeWhile_append_dropWhile.symm⟩

theorem scanExponentDigits_sound {n m : Literal} {negative : Bool} {cs rest : List Char}
    (h : scanExponentDigits n negative cs = some (m, rest)) :
    ∃ digits, IsDigits digits ∧ cs = digits ++ rest ∧
      m = { n with exponent := some ⟨negative, digits⟩ } := by
  obtain ⟨⟨digits, rest'⟩, hd, he⟩ := Option.map_eq_some_iff.mp h
  cases he
  obtain ⟨hdigits, hcs⟩ := scanDigits_sound hd
  exact ⟨digits, hdigits, hcs, rfl⟩

theorem scanSigned_sound {n m : Literal} {cs rest : List Char}
    (h : scanSigned n cs = some (m, rest)) :
    ∃ negative sign digits, SpellsSign negative sign ∧ IsDigits digits ∧
      cs = sign ++ digits ++ rest ∧ m = { n with exponent := some ⟨negative, digits⟩ } := by
  unfold scanSigned at h
  split at h
  · obtain ⟨digits, hdigits, rfl, hm⟩ := scanExponentDigits_sound h
    exact ⟨true, ['-'], digits, .minus, hdigits, rfl, hm⟩
  · obtain ⟨digits, hdigits, rfl, hm⟩ := scanExponentDigits_sound h
    exact ⟨false, ['+'], digits, .plus, hdigits, rfl, hm⟩
  · obtain ⟨digits, hdigits, rfl, hm⟩ := scanExponentDigits_sound h
    exact ⟨false, [], digits, .absent, hdigits, rfl, hm⟩

theorem scanExponent_sound {n m : Literal} {cs rest : List Char} (hn : n.exponent = none)
    (h : scanExponent n cs = some (m, rest)) :
    ∃ exponent es, SpellsExponent exponent es ∧ cs = es ++ rest ∧ m = { n with exponent } := by
  have habsent : n = { n with exponent := none } := by
    rw [← hn]
  unfold scanExponent at h
  split at h
  · cases h
    exact ⟨none, [], .absent, rfl, habsent⟩
  · split at h
    · rename_i hletter
      obtain ⟨negative, sign, digits, hsign, hdigits, rfl, hm⟩ := scanSigned_sound h
      exact ⟨_, _, .given hletter hsign hdigits, rfl, hm⟩
    · cases h
      exact ⟨none, [], .absent, rfl, habsent⟩

theorem scanFraction_sound {negative : Bool} {m : Literal} {whole cs rest : List Char}
    (h : scanFraction { negative, whole } cs = some (m, rest)) :
    ∃ fraction exponent fs es, SpellsFraction fraction fs ∧ SpellsExponent exponent es ∧
      cs = fs ++ es ++ rest ∧ m = ⟨negative, whole, fraction, exponent⟩ := by
  unfold scanFraction at h
  split at h
  · obtain ⟨⟨digits, rest'⟩, hd, he⟩ := Option.bind_eq_some_iff.mp h
    obtain ⟨hdigits, rfl⟩ := scanDigits_sound hd
    obtain ⟨exponent, es, hexponent, rfl, rfl⟩ := scanExponent_sound rfl he
    refine ⟨digits, exponent, _, es, .given hdigits, hexponent, ?_, rfl⟩
    rw [List.cons_append, List.cons_append, List.append_assoc]
  · obtain ⟨exponent, es, hexponent, rfl, rfl⟩ := scanExponent_sound rfl h
    exact ⟨[], exponent, [], es, .absent, hexponent, rfl, rfl⟩

theorem scanWhole_sound {negative : Bool} {m : Literal} {cs rest : List Char}
    (h : scanWhole negative cs = some (m, rest)) :
    ∃ ds, SpellsUnsigned negative m ds ∧ cs = ds ++ rest := by
  obtain ⟨⟨whole, rest'⟩, hd, he⟩ := Option.bind_eq_some_iff.mp h
  obtain ⟨hwhole, rfl⟩ := scanDigits_sound hd
  dsimp only at he
  split at he
  · cases he
  · rename_i hzero
    obtain ⟨fraction, exponent, fs, es, hfraction, hexponent, rfl, rfl⟩ := scanFraction_sound he
    refine ⟨whole ++ (fs ++ es), .mk hwhole (fun hhead => ?_) hfraction hexponent, ?_⟩
    · exact Decidable.not_not.mp fun hne => hzero ⟨hhead, hne⟩
    · simp only [List.append_assoc]

/-- What is scanned as a literal spells it. -/
theorem scan_sound {m : Literal} {cs rest : List Char} (h : scan cs = some (m, rest)) :
    ∃ ds, m.Spells ds ∧ cs = ds ++ rest := by
  unfold scan at h
  split at h
  · obtain ⟨ds, hds, rfl⟩ := scanWhole_sound h
    exact ⟨'-' :: ds, .negative hds, rfl⟩
  · obtain ⟨ds, hds, rfl⟩ := scanWhole_sound h
    exact ⟨ds, .positive hds, rfl⟩

/-! ## Scanning to the end -/

theorem scanDigits_append {digits rest : List Char} (h : IsDigits digits)
    (hrest : ∀ c, rest.head? = some c → c.isDigit = false) :
    scanDigits (digits ++ rest) = some (digits, rest) := by
  have hnone : rest.takeWhile Char.isDigit = [] ∧ rest.dropWhile Char.isDigit = rest := by
    cases rest with
    | nil => exact ⟨rfl, rfl⟩
    | cons c rest =>
      have hc : ¬c.isDigit = true := by
        rw [hrest c rfl]
        exact Bool.false_ne_true
      exact ⟨List.takeWhile_cons_of_neg hc, List.dropWhile_cons_of_neg hc⟩
  have htake : (digits ++ rest).takeWhile Char.isDigit = digits := by
    rw [List.takeWhile_append_of_pos h.isDigit, hnone.1, List.append_nil]
  have hdrop : (digits ++ rest).dropWhile Char.isDigit = rest := by
    rw [List.dropWhile_append_of_pos h.isDigit, hnone.2]
  obtain ⟨d, ds, rfl, -⟩ := h.exists_eq_cons
  unfold scanDigits
  rw [htake, hdrop]

theorem scanSigned_append {negative : Bool} {sign digits rest : List Char}
    (hsign : SpellsSign negative sign) (hdigits : IsDigits digits) (hrest : EndsNumber rest)
    (n : Literal) :
    scanSigned n (sign ++ digits ++ rest) =
      some ({ n with exponent := some ⟨negative, digits⟩ }, rest) := by
  have hscan (negative : Bool) : scanExponentDigits n negative (digits ++ rest) =
      some ({ n with exponent := some ⟨negative, digits⟩ }, rest) := by
    rw [scanExponentDigits, scanDigits_append hdigits hrest.noDigit, Option.map_some]
  cases hsign with
  | plus => exact hscan false
  | minus => exact hscan true
  | absent =>
    -- Digits have no sign in front of them.
    obtain ⟨d, ds, rfl, hd⟩ := hdigits.exists_eq_cons
    rw [List.nil_append]
    unfold scanSigned
    split
    · rename_i heq
      rw [(List.cons.inj heq).1] at hd
      exact absurd hd (by decide)
    · rename_i heq
      rw [(List.cons.inj heq).1] at hd
      exact absurd hd (by decide)
    · exact hscan false

theorem scanExponent_append {exponent : Option Exponent} {es rest : List Char}
    (h : SpellsExponent exponent es) (hrest : EndsNumber rest) {n : Literal}
    (hn : n.exponent = none) :
    scanExponent n (es ++ rest) = some ({ n with exponent }, rest) := by
  cases h with
  | absent =>
    rw [← hn, List.nil_append]
    cases rest with
    | nil => rfl
    | cons c rest =>
      have hletter : ¬(c = 'e' ∨ c = 'E') := fun hc =>
        hc.elim (fun hc => hrest.noExponent.1 (congrArg some hc))
          fun hc => hrest.noExponent.2 (congrArg some hc)
      rw [scanExponent, if_neg hletter]
  | given hletter hsign hdigits =>
    rw [List.cons_append, scanExponent, if_pos hletter]
    exact scanSigned_append hsign hdigits hrest n

/-- What starts with neither a point nor a digit does so with an exponent in front too. -/
theorem head?_exponent_append {exponent : Option Exponent} {es rest : List Char}
    (h : SpellsExponent exponent es) (hrest : EndsNumber rest) :
    (∀ c, (es ++ rest).head? = some c → c.isDigit = false) ∧ (es ++ rest).head? ≠ some '.' := by
  cases h with
  | absent => exact ⟨hrest.noDigit, hrest.noPoint⟩
  | given hletter _ _ =>
    constructor
    · intro c hc
      rw [← Option.some.inj hc]
      rcases hletter with rfl | rfl
      · rfl
      · rfl
    · intro hc
      rw [List.cons_append, List.head?_cons, Option.some.injEq] at hc
      rw [hc] at hletter
      exact absurd hletter (by decide)

theorem scanFraction_append {fraction fs es rest : List Char} {exponent : Option Exponent}
    (hfraction : SpellsFraction fraction fs) (hexponent : SpellsExponent exponent es)
    (hrest : EndsNumber rest) (negative : Bool) (whole : List Char) :
    scanFraction { negative, whole } (fs ++ (es ++ rest)) =
      some (⟨negative, whole, fraction, exponent⟩, rest) := by
  obtain ⟨hdigit, hpoint⟩ := head?_exponent_append hexponent hrest
  cases hfraction with
  | absent =>
    rw [List.nil_append]
    unfold scanFraction
    split
    · rename_i heq
      rw [heq] at hpoint
      exact absurd rfl hpoint
    · exact scanExponent_append hexponent hrest rfl
  | given hdigits =>
    rw [List.cons_append, scanFraction, scanDigits_append hdigits hdigit, Option.bind_some]
    exact scanExponent_append hexponent hrest rfl

theorem scanWhole_append {negative : Bool} {n : Literal} {cs rest : List Char}
    (h : SpellsUnsigned negative n cs) (hrest : EndsNumber rest) :
    scanWhole negative (cs ++ rest) = some (n, rest) := by
  cases h with
  | @mk whole fraction fs es exponent hwhole hzero hfraction hexponent =>
    have hdigit : ∀ c, (fs ++ (es ++ rest)).head? = some c → c.isDigit = false := by
      cases hfraction with
      | absent => exact (head?_exponent_append hexponent hrest).1
      | given _ =>
        intro c hc
        rw [← Option.some.inj hc]
        rfl
    have hfine : ¬(whole.head? = some '0' ∧ whole ≠ ['0']) := fun h => h.2 (hzero h.1)
    rw [List.append_assoc, List.append_assoc, scanWhole, scanDigits_append hwhole hdigit,
      Option.bind_some]
    dsimp only
    rw [if_neg hfine, scanFraction_append hfraction hexponent hrest]

theorem SpellsUnsigned.exists_eq_cons {negative : Bool} {n : Literal} {cs : List Char}
    (h : SpellsUnsigned negative n cs) : ∃ d ds, cs = d :: ds ∧ d.isDigit = true := by
  cases h with
  | mk hwhole _ _ _ =>
    obtain ⟨d, ds, rfl, hd⟩ := hwhole.exists_eq_cons
    exact ⟨d, _, rfl, hd⟩

theorem Spells.exists_eq_cons {n : Literal} {cs : List Char} (h : n.Spells cs) :
    ∃ c ds, cs = c :: ds ∧ (c = '-' ∨ c.isDigit = true) := by
  cases h with
  | positive h =>
    obtain ⟨d, ds, rfl, hd⟩ := h.exists_eq_cons
    exact ⟨d, ds, rfl, Or.inr hd⟩
  | negative h => exact ⟨'-', _, rfl, Or.inl rfl⟩

/-- A literal is scanned to its end, and no further. -/
theorem scan_append {n : Literal} {cs rest : List Char} (h : n.Spells cs)
    (hrest : EndsNumber rest) : scan (cs ++ rest) = some (n, rest) := by
  cases h with
  | negative h => exact scanWhole_append h hrest
  | positive h =>
    have hwhole := scanWhole_append h hrest
    obtain ⟨d, ds, rfl, hd⟩ := h.exists_eq_cons
    unfold scan
    split
    · rename_i heq
      rw [(List.cons.inj heq).1] at hd
      exact absurd hd (by decide)
    · exact hwhole

/-! ## Literals of integers -/

theorem isDigits_toDigits (n : Nat) : IsDigits (Nat.toDigits 10 n) :=
  ⟨Nat.toDigits_ne_nil, isDigit_of_mem_toDigits⟩

/-- The literal of an integer has the text it is written with. -/
theorem spells_ofInt (n : Int) : (ofInt n).Spells (ofInt n).chars := by
  -- Literals with a zero in front are refused, but only zero itself has one.
  have hzero : (Nat.toDigits 10 n.natAbs).head? = some '0' → Nat.toDigits 10 n.natAbs = ['0'] := by
    intro hhead
    rw [eq_zero_of_head?_toDigits hhead]
    rfl
  have hdigits (negative : Bool) : SpellsUnsigned negative
      { negative, whole := Nat.toDigits 10 n.natAbs } (Nat.toDigits 10 n.natAbs) := by
    have h : SpellsUnsigned negative _ _ :=
      .mk (isDigits_toDigits n.natAbs) hzero .absent .absent
    rwa [List.append_nil, List.append_nil] at h
  by_cases hn : n < 0
  · have hchars : (ofInt n).chars = '-' :: Nat.toDigits 10 n.natAbs := by
      simp [chars, ofInt, hn]
    rw [hchars, ofInt, decide_eq_true hn]
    exact .negative (hdigits true)
  · have hchars : (ofInt n).chars = Nat.toDigits 10 n.natAbs := by
      simp [chars, ofInt, hn]
    rw [hchars, ofInt, decide_eq_false hn]
    exact .positive (hdigits false)

/-! ## What a literal denotes -/

theorem natOf_toDigits (n : Nat) : natOf (Nat.toDigits 10 n) = n :=
  Nat.ofDigitChars_ten_toDigits

theorem integer?_whole (negative : Bool) (digits : List Char) :
    ({ negative, whole := digits } : Literal).integer? =
      if negative then
        if 0 < natOf digits ∧ natOf digits ≤ maxNegative then some (-(natOf digits : Int)) else none
      else if natOf digits ≤ maxWord then some (natOf digits : Int)
      else none := by
  simp [integer?]

/-- An integer that fits 64 bits comes back from its literal. -/
theorem integer?_ofInt {n : Int} (hlow : -(maxNegative : Int) ≤ n) (hhigh : n ≤ maxWord) :
    (ofInt n).integer? = some n := by
  rw [ofInt, integer?_whole, natOf_toDigits]
  by_cases hn : n < 0
  · rw [decide_eq_true hn, if_pos rfl, if_pos (by omega)]
    congr 1
    omega
  · rw [decide_eq_false hn, if_neg Bool.false_ne_true, if_pos (by omega)]
    congr 1
    omega

end Literal

end ParquetStruct.Json
