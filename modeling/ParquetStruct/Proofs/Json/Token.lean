/-
# ParquetStruct.Proofs.Json.Token — the grammar of tokens.

Words and punctuation have one spelling each, numbers and strings have many, and between tokens
there may be space.  Cutting a text into tokens finds what is spelled, and finds it again in every
spelling, if no number stands right before another; for a number goes on with further digits.
Writing, with space or without, is one way of spelling.
-/
import ParquetStruct.Json.Value
import ParquetStruct.Proofs.Json.Number
import ParquetStruct.Proofs.Json.Quoted
import ParquetStruct.Proofs.Text.Line
import Mathlib.Data.List.Chain

namespace ParquetStruct.Json

/-! ## One token -/

namespace Token

/-- Whether a token is a number. -/
def isNumber : Token → Bool
  | .number _ => true
  | _ => false

/-- Whether a token is a word or a punctuation mark, with one spelling only. -/
def isMark : Token → Bool
  | .number _ => false
  | .string _ => false
  | .stray => false
  | _ => true

/-- The spellings of a token; a stray token has none. -/
inductive Spells : Token → List Char → Prop
  | mark {t : Token} (h : t.isMark = true) : Spells t t.chars
  | number {n : Literal} {cs : List Char} (h : n.Spells cs) : Spells (.number n) cs
  | string {s : Option String} {cs : List Char} (h : SpellsString s cs) :
      Spells (.string s) ('"' :: (cs ++ ['"']))

/-- What is scanned as a token spells it. -/
theorem scan_sound {cs : List Char} {t : Token} {rest : List Char}
    (h : scan cs = some (t, rest)) : ∃ ds, t.Spells ds ∧ cs = ds ++ rest := by
  unfold scan at h
  split at h
  case h_10 tail =>
    obtain ⟨⟨s, rest'⟩, hs, he⟩ := Option.map_eq_some_iff.mp h
    cases he
    obtain ⟨ds, hds, rfl⟩ := scanQuoted_sound hs
    exact ⟨_, .string hds, by simp⟩
  case h_11 =>
    obtain ⟨⟨n, rest'⟩, hn, he⟩ := Option.map_eq_some_iff.mp h
    cases he
    obtain ⟨ds, hds, rfl⟩ := Literal.scan_sound hn
    exact ⟨ds, .number hds, rfl⟩
  all_goals
    cases h
    exact ⟨_, .mark rfl, rfl⟩

theorem scan_of_number {c : Char} (h : c = '-' ∨ c.isDigit = true) (cs : List Char) :
    scan (c :: cs) = (Literal.scan (c :: cs)).map fun (n, rest) => (.number n, rest) := by
  unfold scan
  split
  case h_11 => rfl
  -- All patterns before the last ask for a character that is no sign and no digit.
  all_goals
    rename_i heq
    cases heq
    exact absurd h (by decide)

/-- A token is scanned to its end, a number if what follows cannot go on with it. -/
theorem scan_append {t : Token} {cs : List Char} (h : t.Spells cs) {rest : List Char}
    (hrest : t.isNumber = true → EndsNumber rest) : scan (cs ++ rest) = some (t, rest) := by
  cases h with
  | mark hmark =>
    cases t with
    | bool b => cases b <;> rfl
    | number n => cases hmark
    | string s => cases hmark
    | stray => cases hmark
    | _ => rfl
  | number hn =>
    have hscan := Literal.scan_append hn (hrest rfl)
    obtain ⟨c, ds, rfl, hc⟩ := hn.exists_eq_cons
    rw [List.cons_append] at hscan ⊢
    rw [scan_of_number hc, hscan, Option.map_some]
  | string hs =>
    rw [List.cons_append, List.append_assoc, List.singleton_append, scan, scanQuoted_append hs,
      Option.map_some]

theorem isSpace_eq_false_of_number {c : Char} (h : c = '-' ∨ c.isDigit = true) :
    isSpace c = false := by
  cases hspace : isSpace c with
  | false => rfl
  | true =>
    simp only [isSpace, Bool.or_eq_true, beq_iff_eq] at hspace
    rcases hspace with ((rfl | rfl) | rfl) | rfl
    · exact absurd h (by decide)
    · exact absurd h (by decide)
    · exact absurd h (by decide)
    · exact absurd h (by decide)

/-- A token starts with a character that ends the space, and, unless the token is a number, the
number before it. -/
theorem Spells.exists_eq_cons {t : Token} {cs : List Char} (h : t.Spells cs) :
    ∃ c ds, cs = c :: ds ∧ isSpace c = false ∧
      (t.isNumber = false → ∀ rest, EndsNumber (c :: rest)) := by
  cases h with
  | mark hmark =>
    cases t with
    | openBrace => exact ⟨'\x7b', [], rfl, rfl, fun _ => endsNumber_cons (by decide)⟩
    | closeBrace => exact ⟨'\x7d', [], rfl, rfl, fun _ => endsNumber_cons (by decide)⟩
    | openBracket => exact ⟨'[', [], rfl, rfl, fun _ => endsNumber_cons (by decide)⟩
    | closeBracket => exact ⟨']', [], rfl, rfl, fun _ => endsNumber_cons (by decide)⟩
    | colon => exact ⟨':', [], rfl, rfl, fun _ => endsNumber_cons (by decide)⟩
    | comma => exact ⟨',', [], rfl, rfl, fun _ => endsNumber_cons (by decide)⟩
    | null => exact ⟨'n', _, rfl, rfl, fun _ => endsNumber_cons (by decide)⟩
    | bool b =>
      cases b with
      | true => exact ⟨'t', _, rfl, rfl, fun _ => endsNumber_cons (by decide)⟩
      | false => exact ⟨'f', _, rfl, rfl, fun _ => endsNumber_cons (by decide)⟩
    | number n => cases hmark
    | string s => cases hmark
    | stray => cases hmark
  | number hn =>
    obtain ⟨c, ds, rfl, hc⟩ := hn.exists_eq_cons
    exact ⟨c, ds, rfl, isSpace_eq_false_of_number hc, nofun⟩
  | string _ => exact ⟨'"', _, rfl, rfl, fun _ => endsNumber_cons (by decide)⟩

theorem Spells.ne_stray {t : Token} {cs : List Char} (h : t.Spells cs) : t ≠ .stray := by
  rintro rfl
  cases h with
  | mark hmark => cases hmark

end Token

/-! ## Tokens in a row -/

/-- Runs of characters that may stand between tokens. -/
def IsSpacing (ws : List Char) : Prop := ∀ c ∈ ws, Token.isSpace c = true

theorem isSpacing_nil : IsSpacing [] := nofun

theorem IsSpacing.append {ws ws' : List Char} (h : IsSpacing ws) (h' : IsSpacing ws') :
    IsSpacing (ws ++ ws') := List.forall_mem_append.mpr ⟨h, h'⟩

/-- The spellings of tokens, with space before each and at the end. -/
inductive SpellsTokens : List Token → List Char → Prop
  | nil {ws : List Char} (hws : IsSpacing ws) : SpellsTokens [] ws
  | cons {t : Token} {ts : List Token} {ws cs rest : List Char} (hws : IsSpacing ws)
      (ht : t.Spells cs) (hts : SpellsTokens ts rest) : SpellsTokens (t :: ts) (ws ++ (cs ++ rest))

/-- No number stands right before another. -/
def NumbersApart (ts : List Token) : Prop :=
  ts.IsChain fun t u => t.isNumber = true → u.isNumber = false

variable {ts : List Token} {cs : List Char}

theorem SpellsTokens.append_left (h : SpellsTokens ts cs) {ws : List Char} (hws : IsSpacing ws) :
    SpellsTokens ts (ws ++ cs) := by
  cases h with
  | nil hws' => exact .nil (hws.append hws')
  | cons hws' ht hts =>
    rw [← List.append_assoc]
    exact .cons (hws.append hws') ht hts

theorem SpellsTokens.stray_not_mem (h : SpellsTokens ts cs) : .stray ∉ ts := by
  induction h with
  | nil _ => exact List.not_mem_nil
  | cons _ ht _ ih =>
    rw [List.mem_cons, not_or]
    exact ⟨ht.ne_stray.symm, ih⟩

theorem endsNumber_of_isSpace {c : Char} (h : Token.isSpace c = true) (cs : List Char) :
    EndsNumber (c :: cs) := by
  simp only [Token.isSpace, Bool.or_eq_true, beq_iff_eq] at h
  rcases h with ((rfl | rfl) | rfl) | rfl
  · exact endsNumber_cons (by decide) cs
  · exact endsNumber_cons (by decide) cs
  · exact endsNumber_cons (by decide) cs
  · exact endsNumber_cons (by decide) cs

/-- Tokens of which the first is no number cannot go on with a number before them. -/
theorem SpellsTokens.endsNumber (h : SpellsTokens ts cs)
    (hfirst : ∀ t ∈ ts.head?, t.isNumber = false) : EndsNumber cs := by
  have hspacing {ws rest : List Char} (hws : IsSpacing ws) (hrest : EndsNumber rest) :
      EndsNumber (ws ++ rest) := by
    cases ws with
    | nil => exact hrest
    | cons w ws => exact endsNumber_of_isSpace (hws w List.mem_cons_self) _
  cases h with
  | nil hws =>
    have h := hspacing hws endsNumber_nil
    rwa [List.append_nil] at h
  | cons hws ht _ =>
    obtain ⟨c, ds, rfl, -, hends⟩ := ht.exists_eq_cons
    exact hspacing hws (hends (hfirst _ rfl) _)

/-! ## The tokens of a text -/

theorem tokens_append_space {ws : List Char} (h : IsSpacing ws) (cs : List Char) :
    tokens (ws ++ cs) = tokens cs := by
  rw [tokens, tokens, List.dropWhile_append_of_pos h]

/-- A text that starts with a token has that token first. -/
theorem tokens_of_scan {cs rest : List Char} {t : Token}
    (hspace : ∀ c, cs.head? = some c → Token.isSpace c = false)
    (h : Token.scan cs = some (t, rest)) : tokens cs = t :: tokens rest := by
  have hne : cs.isEmpty = false := by
    cases cs with
    | nil => exact absurd (Token.length_lt_of_scan h) (Nat.not_lt_zero _)
    | cons c cs => rfl
  rw [tokens, Text.dropWhile_eq_self hspace, hne, if_neg Bool.false_ne_true, h]

theorem tokens_append {t : Token} {cs rest : List Char} (h : t.Spells cs)
    (hrest : t.isNumber = true → EndsNumber rest) : tokens (cs ++ rest) = t :: tokens rest := by
  refine tokens_of_scan ?_ (Token.scan_append h hrest)
  obtain ⟨c, ds, rfl, hc, -⟩ := h.exists_eq_cons
  intro d hd
  rw [List.cons_append, List.head?_cons, Option.some.injEq] at hd
  rw [← hd, hc]

/-- Tokens come back from every spelling, if the numbers among them stand apart. -/
theorem SpellsTokens.tokens_eq (h : SpellsTokens ts cs) (hapart : NumbersApart ts) :
    tokens cs = ts := by
  induction h with
  | @nil ws hws =>
    have hnil := tokens_append_space hws []
    rw [List.append_nil] at hnil
    rw [hnil, tokens]
    rfl
  | cons hws ht hts ih =>
    obtain ⟨hfirst, hapart⟩ := List.isChain_cons.mp hapart
    have hends := fun hnumber => hts.endsNumber fun u hu => hfirst u hu hnumber
    rw [tokens_append_space hws, tokens_append ht hends, ih hapart]

/-- A text without stray characters spells its tokens. -/
theorem spellsTokens_tokens (cs : List Char) (h : .stray ∉ tokens cs) :
    SpellsTokens (tokens cs) cs := by
  have hspacing (cs : List Char) : IsSpacing (cs.takeWhile Token.isSpace) := fun c hc =>
    List.mem_takeWhile_imp hc
  fun_induction tokens cs with
  | case1 cs cs' hempty =>
    have hsplit : cs.takeWhile Token.isSpace ++ cs' = cs := List.takeWhile_append_dropWhile
    rw [List.isEmpty_iff.mp hempty, List.append_nil] at hsplit
    exact .nil (hsplit ▸ hspacing cs)
  | case2 => exact absurd (List.mem_singleton_self _) h
  | case3 cs cs' _ t rest hscan ih =>
    rw [List.mem_cons, not_or] at h
    obtain ⟨ds, hds, hcs'⟩ := Token.scan_sound hscan
    have hsplit : cs.takeWhile Token.isSpace ++ cs' = cs := List.takeWhile_append_dropWhile
    rw [hcs'] at hsplit
    have htokens := SpellsTokens.cons (hspacing cs) hds (ih h.2)
    rwa [hsplit] at htokens

/-! ## Written tokens -/

/-- The tokens that writing makes use of. -/
def Token.IsPlain : Token → Prop
  | .number n => ∃ i, n = .ofInt i
  | .string s => s.isSome = true
  | .stray => False
  | _ => True

/-- A plain token is spelled by what it is written as. -/
theorem Token.spells_chars {t : Token} (h : t.IsPlain) : t.Spells t.chars := by
  cases t with
  | number n =>
    obtain ⟨i, rfl⟩ := h
    exact .number (Literal.spells_ofInt i)
  | string s =>
    cases s with
    | none => cases h
    | some s => exact .string (spellsString_quoted s)
  | stray => exact h.elim
  | _ => exact .mark rfl

theorem spellsTokens_compactChars {ts : List Token} (h : ∀ t ∈ ts, t.IsPlain) :
    SpellsTokens ts (compactChars ts) := by
  induction ts with
  | nil => exact .nil isSpacing_nil
  | cons t ts ih =>
    rw [List.forall_mem_cons] at h
    exact .cons isSpacing_nil (Token.spells_chars h.1) (ih h.2)

theorem isSpacing_newline (depth : Nat) : IsSpacing (newline depth) := by
  intro c hc
  rcases List.mem_cons.mp hc with rfl | hc
  · rfl
  · rw [List.eq_of_mem_replicate hc]
    rfl

/-- Laying tokens out puts space around each of them. -/
theorem prettyChars_cons (depth : Nat) (t : Token) (ts : List Token) :
    ∃ before after depth', prettyChars depth (t :: ts) =
        before ++ (t.chars ++ (after ++ prettyChars depth' ts)) ∧
      IsSpacing before ∧ IsSpacing after := by
  cases t with
  | openBrace | openBracket =>
    exact ⟨[], newline (depth + 1), depth + 1, List.append_assoc _ _ _, isSpacing_nil,
      isSpacing_newline _⟩
  | closeBrace | closeBracket =>
    exact ⟨newline (depth - 1), [], depth - 1, List.append_assoc _ _ _, isSpacing_newline _,
      isSpacing_nil⟩
  | comma =>
    exact ⟨[], newline depth, depth, List.append_assoc _ _ _, isSpacing_nil, isSpacing_newline _⟩
  | colon => exact ⟨[], [' '], depth, rfl, isSpacing_nil, List.forall_mem_singleton.mpr rfl⟩
  | null | bool | number | string | stray =>
    exact ⟨[], [], depth, rfl, isSpacing_nil, isSpacing_nil⟩

theorem spellsTokens_prettyChars {ts : List Token} (h : ∀ t ∈ ts, t.IsPlain) (depth : Nat) :
    SpellsTokens ts (prettyChars depth ts) := by
  induction ts generalizing depth with
  | nil => exact .nil isSpacing_nil
  | cons t ts ih =>
    rw [List.forall_mem_cons] at h
    obtain ⟨before, after, depth', heq, hbefore, hafter⟩ := prettyChars_cons depth t ts
    rw [heq]
    exact .cons hbefore (Token.spells_chars h.1) ((ih h.2 depth').append_left hafter)

end ParquetStruct.Json
