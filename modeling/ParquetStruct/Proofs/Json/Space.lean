/-
# ParquetStruct.Proofs.Json.Space — white space outside string literals.

Whether a space belongs to a text or only separates its tokens is decided by the quotes and the
backslashes before it, character by character, with nothing known about tokens.  Every spelling of a
token starts and ends outside string literals, and has no space there; so when the space outside is
dropped, tokens stay as they are and what stands between them goes.  Laying tokens out adds nothing
but space of this kind.
-/
import ParquetStruct.Proofs.Json.Token

namespace ParquetStruct.Json

/-! ## Places -/

/-- Where a character stands: outside string literals, in one, or in one right after a backslash that
escapes it. -/
inductive Place where
  | outside
  | inside
  | escaped
  deriving DecidableEq, Repr, Inhabited

/-- The place after a character. -/
def Place.next : Place → Char → Place
  | .outside, c => if c = '"' then .inside else .outside
  | .inside, c => if c = '"' then .outside else if c = '\\' then .escaped else .inside
  | .escaped, _ => .inside

/-- The place after a text. -/
def Place.after (place : Place) (cs : List Char) : Place := cs.foldl Place.next place

/-- A text that starts at some place, without the white space outside its string literals. -/
def dropSpace (place : Place) : List Char → List Char
  | [] => []
  | c :: cs =>
    if place = .outside ∧ Token.isSpace c = true then dropSpace (place.next c) cs
    else c :: dropSpace (place.next c) cs

variable {cs ds ws : List Char} {p q r : Place} {c : Char}

theorem Place.after_append (p : Place) (cs ds : List Char) :
    p.after (cs ++ ds) = (p.after cs).after ds := List.foldl_append

theorem dropSpace_append (p : Place) (cs ds : List Char) :
    dropSpace p (cs ++ ds) = dropSpace p cs ++ dropSpace (p.after cs) ds := by
  induction cs generalizing p with
  | nil => rfl
  | cons c cs ih =>
    rw [List.cons_append, dropSpace, dropSpace, ih]
    show _ = _ ++ dropSpace ((p.next c).after cs) ds
    split_ifs
    · rfl
    · rfl

/-- Space between tokens is dropped. -/
theorem dropSpace_spacing_append (hws : IsSpacing ws) (cs : List Char) :
    dropSpace .outside (ws ++ cs) = dropSpace .outside cs := by
  induction ws with
  | nil => rfl
  | cons w ws ih =>
    obtain ⟨hw, hws⟩ := List.forall_mem_cons.mp hws
    -- A space is no quote, so it leaves the place as it is.
    have hnext : Place.outside.next w = .outside := by
      apply if_neg
      rintro rfl
      cases hw
    rw [List.cons_append, dropSpace, if_pos ⟨rfl, hw⟩, hnext]
    exact ih hws

/-! ## Text that stays -/

/-- A text that leads from one place to another and has no space to be dropped. -/
structure Stays (p q : Place) (cs : List Char) : Prop where
  after_eq : p.after cs = q
  dropSpace_eq : dropSpace p cs = cs

theorem stays_nil (p : Place) : Stays p p [] := ⟨rfl, rfl⟩

theorem Stays.append (h : Stays p q cs) (h' : Stays q r ds) : Stays p r (cs ++ ds) where
  after_eq := by rw [Place.after_append, h.after_eq, h'.after_eq]
  dropSpace_eq := by rw [dropSpace_append, h.after_eq, h.dropSpace_eq, h'.dropSpace_eq]

theorem Stays.dropSpace_append (h : Stays p q cs) (ds : List Char) :
    dropSpace p (cs ++ ds) = cs ++ dropSpace q ds := by
  rw [Json.dropSpace_append, h.after_eq, h.dropSpace_eq]

/-- A character stays in a string literal, whatever it is, and outside if it is no space. -/
theorem stays_singleton (hnext : p.next c = q) (h : p = .outside → Token.isSpace c = false) :
    Stays p q [c] := by
  refine ⟨hnext, ?_⟩
  rw [dropSpace, if_neg]
  · rfl
  · rintro ⟨hp, hspace⟩
    rw [h hp] at hspace
    cases hspace

/-! ## Numbers and marks -/

/-- A text without quotes and without space between tokens. -/
def IsSolid (cs : List Char) : Prop := ∀ c ∈ cs, c ≠ '"' ∧ Token.isSpace c = false

theorem IsSolid.append (h : IsSolid cs) (h' : IsSolid ds) : IsSolid (cs ++ ds) :=
  List.forall_mem_append.mpr ⟨h, h'⟩

theorem IsSolid.stays (h : IsSolid cs) : Stays .outside .outside cs := by
  induction cs with
  | nil => exact stays_nil .outside
  | cons c cs ih =>
    obtain ⟨⟨hquote, hspace⟩, hcs⟩ := List.forall_mem_cons.mp h
    have hc : Stays .outside .outside [c] := stays_singleton (if_neg hquote) fun _ => hspace
    exact hc.append (ih hcs)

theorem IsDigits.isSolid (h : IsDigits cs) : IsSolid cs := by
  intro c hc
  have hdigit := h.isDigit c hc
  refine ⟨?_, Token.isSpace_eq_false_of_number (Or.inr hdigit)⟩
  rintro rfl
  cases hdigit

namespace Literal

theorem SpellsSign.isSolid {negative : Bool} (h : SpellsSign negative cs) : IsSolid cs := by
  cases h with
  | absent => exact nofun
  | plus => exact List.forall_mem_singleton.mpr (by decide)
  | minus => exact List.forall_mem_singleton.mpr (by decide)

theorem SpellsExponent.isSolid {exponent : Option Exponent} (h : SpellsExponent exponent cs) :
    IsSolid cs := by
  cases h with
  | absent => exact nofun
  | given hletter hsign hdigits =>
    refine List.forall_mem_cons.mpr ⟨?_, hsign.isSolid.append hdigits.isSolid⟩
    rcases hletter with rfl | rfl
    · decide
    · decide

theorem SpellsFraction.isSolid {fraction : List Char} (h : SpellsFraction fraction cs) :
    IsSolid cs := by
  cases h with
  | absent => exact nofun
  | given hdigits => exact List.forall_mem_cons.mpr ⟨by decide, hdigits.isSolid⟩

theorem SpellsUnsigned.isSolid {negative : Bool} {n : Literal} (h : SpellsUnsigned negative n cs) :
    IsSolid cs := by
  cases h with
  | mk hwhole _ hfraction hexponent =>
    exact hwhole.isSolid.append (hfraction.isSolid.append hexponent.isSolid)

/-- A number has no space in it, however it is spelled. -/
theorem Spells.isSolid {n : Literal} (h : n.Spells cs) : IsSolid cs := by
  cases h with
  | positive h => exact h.isSolid
  | negative h => exact List.forall_mem_cons.mpr ⟨by decide, h.isSolid⟩

end Literal

/-- Whether a text is solid can be seen character by character. -/
theorem isSolid_of_all (h : cs.all (fun c => c != '"' && !Token.isSpace c) = true) :
    IsSolid cs := by
  intro c hc
  simpa using List.all_eq_true.mp h c hc

/-- A word or a punctuation mark has no space in it. -/
theorem Token.isSolid_of_isMark {t : Token} (h : t.isMark = true) : IsSolid t.chars := by
  apply isSolid_of_all
  cases t with
  | bool b =>
    cases b with
    | true => decide
    | false => decide
  | number n => cases h
  | string s => cases h
  | stray => cases h
  | _ => decide

/-! ## String literals -/

theorem hexValue?_quote : hexValue? '"' = none := by decide

theorem hexValue?_backslash : hexValue? '\\' = none := by decide

/-- A character in a string literal that is neither a quote nor a backslash leads on in it. -/
theorem stays_inside (hquote : c ≠ '"') (hslash : c ≠ '\\') : Stays .inside .inside [c] := by
  refine stays_singleton ?_ nofun
  rw [Place.next, if_neg hquote, if_neg hslash]

/-- An escaped character leads on in a string literal, even if it is a quote. -/
theorem stays_escape (e : Char) : Stays .inside .inside ['\\', e] := by
  have hslash : Stays .inside .escaped ['\\'] := stays_singleton rfl nofun
  have he : Stays .escaped .inside [e] := stays_singleton rfl nofun
  exact hslash.append he

theorem stays_hexDigit {n : Nat} (h : hexValue? c = some n) : Stays .inside .inside [c] := by
  apply stays_inside
  · rintro rfl
    rw [hexValue?_quote] at h
    cases h
  · rintro rfl
    rw [hexValue?_backslash] at h
    cases h

/-- A code point has no end of the literal in it, however it is spelled. -/
theorem SpellsCode.stays {n : Nat} (h : SpellsCode n cs) : Stays .inside .inside cs := by
  cases h with
  | plain hquote hslash _ => exact stays_inside hquote hslash
  | @letter e c _ => exact stays_escape e
  | @hex a b c d _ h =>
    simp only [hex4?, Option.bind_eq_bind, Option.bind_eq_some_iff] at h
    obtain ⟨_, ha, _, hb, _, hc, _, hd, -⟩ := h
    exact (stays_escape 'u').append ((stays_hexDigit ha).append ((stays_hexDigit hb).append
      ((stays_hexDigit hc).append (stays_hexDigit hd))))

theorem SpellsCodes.stays {ns : List Nat} (h : SpellsCodes ns cs) : Stays .inside .inside cs := by
  induction h with
  | nil => exact stays_nil .inside
  | cons hcode _ ih => exact hcode.stays.append ih

theorem SpellsString.stays {s : Option String} (h : SpellsString s cs) :
    Stays .inside .inside cs := by
  cases h with
  | text hcodes _ => exact hcodes.stays
  | noText hcodes _ => exact hcodes.stays

/-! ## Tokens -/

/-- A token starts and ends outside string literals and keeps all of its text, however it is
spelled. -/
theorem Token.Spells.stays {t : Token} (h : t.Spells cs) : Stays .outside .outside cs := by
  cases h with
  | mark hmark => exact (Token.isSolid_of_isMark hmark).stays
  | number hn => exact hn.isSolid.stays
  | string hs =>
    have hopen : Stays .outside .inside ['"'] := stays_singleton rfl fun _ => rfl
    have hclose : Stays .inside .outside ['"'] := stays_singleton rfl nofun
    exact hopen.append (hs.stays.append hclose)

/-- Laying tokens out adds space outside string literals only. -/
theorem dropSpace_prettyChars {ts : List Token} (h : ∀ t ∈ ts, t.IsPlain) (depth : Nat) :
    dropSpace .outside (prettyChars depth ts) = compactChars ts := by
  induction ts generalizing depth with
  | nil => rfl
  | cons t ts ih =>
    rw [List.forall_mem_cons] at h
    obtain ⟨before, after, depth', heq, hbefore, hafter⟩ := prettyChars_cons depth t ts
    calc dropSpace .outside (prettyChars depth (t :: ts))
        = dropSpace .outside (t.chars ++ (after ++ prettyChars depth' ts)) := by
          rw [heq, dropSpace_spacing_append hbefore]
      _ = t.chars ++ dropSpace .outside (prettyChars depth' ts) := by
          rw [(Token.spells_chars h.1).stays.dropSpace_append, dropSpace_spacing_append hafter]
      _ = compactChars (t :: ts) := by
          rw [ih h.2 depth', compactChars, compactChars, List.flatMap_cons]

-- The spaces between the items go, those in the string literal stay.
example : dropSpace .outside "[\n  \"a \\\" b\",\n  1\n]".toList = "[\"a \\\" b\",1]".toList := by
  decide

end ParquetStruct.Json
