/-
# ParquetStruct.Proofs.Struct.Tag — reading the entries of a struct tag back from its text.

`Tag.decode` knows only how tags are spelled: it takes off the delimiters, cuts at every comma with
a space after it, cuts each piece at its first equals sign, and undoes the percent signs of the
value.  Values never hold a comma, so for tags whose keys are plain words it gives back the entries
themselves, and two such tags of one text are equal.  Nor do values hold a delimiter of the tag or a
control character, so the text of a tag stays between its backquotes and on one line.  All this
depends on the entries alone, not on how the tag was built: building one adds its entries in order.
-/
import ParquetStruct.Proofs.Struct.Identifier
import ParquetStruct.Proofs.Text.Line
import ParquetStruct.Struct.Tag

namespace ParquetStruct.Struct.Tag

/-! ## Reserved characters -/

theorem toNat_lt_of_isReserved {c : Char} (h : isReserved c = true) : c.toNat < 128 := by
  simp only [isReserved, Bool.or_eq_true, beq_iff_eq, decide_eq_true_eq] at h
  rcases h with (((((rfl | rfl) | rfl) | rfl) | rfl) | h) | h
  · decide
  · decide
  · decide
  · decide
  · decide
  · omega
  · omega

theorem isReserved_hexDigit : ∀ n < 16, isReserved (hexDigit n) = false := by decide

/-- Of the reserved characters only the percent sign is left in a spelled value. -/
theorem eq_percent_of_mem_escape {c : Char} {cs : List Char} (h : c ∈ escape cs)
    (hc : isReserved c = true) : c = '%' := by
  obtain ⟨d, -, hd⟩ := List.mem_flatMap.mp h
  unfold escapeChar at hd
  split at hd
  · -- An escape is the percent sign and two digits, of which neither is reserved.
    rename_i hres
    have hlt := toNat_lt_of_isReserved hres
    have hhigh := isReserved_hexDigit (d.toNat / 16) (by omega)
    have hlow := isReserved_hexDigit (d.toNat % 16) (by omega)
    simp only [List.mem_cons, List.not_mem_nil, or_false] at hd
    rcases hd with rfl | rfl | rfl
    · rfl
    · rw [hhigh] at hc
      cases hc
    · rw [hlow] at hc
      cases hc
  · rename_i hres
    rw [List.mem_singleton.mp hd] at hc
    exact absurd hc hres

/-! ## Plain keys -/

/-- Every key of the tag is made of lower-case ASCII letters. -/
def PlainKeys (t : Tag) : Prop :=
  ∀ e ∈ t.entries, ∀ c ∈ e.1.toList, c.isLower = true

theorem plainKeys_empty : PlainKeys {} := nofun

theorem PlainKeys.push {t : Tag} (h : t.PlainKeys) {key : String}
    (hkey : ∀ c ∈ key.toList, c.isLower = true) (value : String) : (t.push key value).PlainKeys := by
  unfold PlainKeys
  rw [entries_push, List.forall_mem_append, List.forall_mem_singleton]
  exact ⟨h, hkey⟩

theorem PlainKeys.append {t u : Tag} (ht : t.PlainKeys) (hu : u.PlainKeys) :
    (t ++ u).PlainKeys := by
  unfold PlainKeys
  rw [entries_append, List.forall_mem_append]
  exact ⟨ht, hu⟩

theorem isReserved_of_isLower {c : Char} (h : c.isLower = true) :
    isReserved c = false ∧ c ≠ '=' ∧ c ≠ ',' := by
  have hc : c.toNat < 128 := toNat_lt_of_isIdentifierChar (isIdentifierChar_of_isLower h)
  exact forall_ascii
    (P := fun c => c.isLower = true → isReserved c = false ∧ c ≠ '=' ∧ c ≠ ',') (by decide) hc h

/-! ## What stands between the delimiters -/

/-- The text of a tag without its delimiters. -/
def content (t : Tag) : List Char :=
  [',', ' '].intercalate (t.entries.map entryChars)

theorem chars_eq (t : Tag) : t.chars = "`parquet:\"".toList ++ t.content ++ "\"`".toList := rfl

theorem reserved_of_mem_entryChars {c : Char} {e : String × String}
    (hkey : ∀ c ∈ e.1.toList, c.isLower = true) (h : c ∈ entryChars e)
    (hc : isReserved c = true) : c = '%' := by
  rw [entryChars, List.mem_append, List.mem_cons] at h
  rcases h with h | rfl | h
  · rw [(isReserved_of_isLower (hkey c h)).1] at hc
    cases hc
  · exact absurd hc (by decide)
  · exact eq_percent_of_mem_escape h hc

/-- Between the delimiters, percent signs and the commas between entries are the only reserved
characters. -/
theorem reserved_of_mem_content {t : Tag} (ht : t.PlainKeys) {c : Char} (h : c ∈ t.content)
    (hc : isReserved c = true) : c = '%' ∨ c = ',' := by
  rcases Text.mem_intercalate h with h | ⟨p, hp, h⟩
  · simp only [List.mem_cons, List.not_mem_nil, or_false] at h
    rcases h with rfl | rfl
    · exact Or.inr rfl
    · exact absurd hc (by decide)
  · obtain ⟨e, he, rfl⟩ := List.mem_map.mp hp
    exact Or.inl (reserved_of_mem_entryChars (ht e he) h hc)

/-! ## Undoing the spelling of values -/

/-- The number of an upper-case hexadecimal digit. -/
def hexValue (c : Char) : Nat :=
  if c.isDigit then c.toNat - 48 else c.toNat - 55

/-- A value from its spelling: a percent sign and two digits stand for one character. -/
def unescape : List Char → List Char
  | '%' :: h :: l :: cs => Char.ofNat (16 * hexValue h + hexValue l) :: unescape cs
  | c :: cs => c :: unescape cs
  | [] => []

theorem hexValue_hexDigit : ∀ n < 16, hexValue (hexDigit n) = n := by decide

theorem unescape_cons {c : Char} (h : c ≠ '%') (cs : List Char) :
    unescape (c :: cs) = c :: unescape cs := by
  rw [unescape.eq_def]
  split
  · rename_i heq
    exact absurd (List.cons.inj heq).1 h
  · rename_i heq
    rw [(List.cons.inj heq).1, (List.cons.inj heq).2]
  · rename_i heq
    cases heq

theorem unescape_escapeChar (c : Char) (cs : List Char) :
    unescape (escapeChar c ++ cs) = c :: unescape cs := by
  unfold escapeChar
  split
  · -- The two digits are those of the code point, which is below 128 and so has no more.
    rename_i hres
    have hlt := toNat_lt_of_isReserved hres
    show unescape ('%' :: hexDigit (c.toNat / 16) :: hexDigit (c.toNat % 16) :: cs) = _
    rw [unescape, hexValue_hexDigit _ (by omega), hexValue_hexDigit _ (by omega), Nat.div_add_mod,
      Char.ofNat_toNat]
  · -- A character that stands for itself is no percent sign, as that one is reserved.
    rename_i hres
    have hc : c ≠ '%' := by
      rintro rfl
      exact hres (by decide)
    exact unescape_cons hc cs

theorem unescape_escape (cs : List Char) : unescape (escape cs) = cs := by
  induction cs with
  | nil => rfl
  | cons c cs ih => rw [escape_cons, unescape_escapeChar, ih]

/-! ## Cutting into entries -/

/-- The pieces of a text between commas that a space follows. -/
def cutEntries : List Char → List (List Char)
  | ',' :: ' ' :: cs => [] :: cutEntries cs
  | c :: cs => (cutEntries cs).modifyHead (c :: ·)
  | [] => [[]]

theorem cutEntries_cons {c : Char} (h : c ≠ ',') (cs : List Char) :
    cutEntries (c :: cs) = (cutEntries cs).modifyHead (c :: ·) := by
  rw [cutEntries.eq_def]
  split
  · rename_i heq
    exact absurd (List.cons.inj heq).1 h
  · rename_i heq
    rw [(List.cons.inj heq).1, (List.cons.inj heq).2]
  · rename_i heq
    cases heq

theorem cutEntries_eq_singleton {p : List Char} (h : ',' ∉ p) : cutEntries p = [p] := by
  induction p with
  | nil => rfl
  | cons c p ih =>
    have hc : c ≠ ',' := fun he => h (he ▸ List.mem_cons_self)
    rw [cutEntries_cons hc, ih fun hm => h (List.mem_cons_of_mem c hm)]
    rfl

theorem cutEntries_append {p : List Char} (h : ',' ∉ p) (cs : List Char) :
    cutEntries (p ++ ',' :: ' ' :: cs) = p :: cutEntries cs := by
  induction p with
  | nil => rw [List.nil_append, cutEntries]
  | cons c p ih =>
    have hc : c ≠ ',' := fun he => h (he ▸ List.mem_cons_self)
    rw [List.cons_append, cutEntries_cons hc, ih fun hm => h (List.mem_cons_of_mem c hm)]
    rfl

/-- Pieces without commas come back from the text that joins them. -/
theorem cutEntries_intercalate {ps : List (List Char)} (h : ∀ p ∈ ps, ',' ∉ p) (hne : ps ≠ []) :
    cutEntries ([',', ' '].intercalate ps) = ps := by
  induction ps with
  | nil => exact absurd rfl hne
  | cons p ps ih =>
    have hp : ',' ∉ p := h p List.mem_cons_self
    by_cases hps : ps = []
    · subst hps
      rw [List.intercalate_singleton, cutEntries_eq_singleton hp]
    · rw [List.intercalate_cons_of_ne_nil hps, List.append_assoc]
      show cutEntries (p ++ ',' :: ' ' :: [',', ' '].intercalate ps) = p :: ps
      rw [cutEntries_append hp, ih (fun q hq => h q (List.mem_cons_of_mem p hq)) hps]

/-! ## Decoding -/

/-- An entry from its text, cut at the first equals sign. -/
def decodeEntry (p : List Char) : String × String :=
  (String.ofList (p.takeWhile (· != '=')),
    String.ofList (unescape ((p.dropWhile (· != '=')).drop 1)))

/-- The entries of a tag from its text. -/
def decode (cs : List Char) : List (String × String) :=
  let content := ((cs.drop "`parquet:\"".length).dropLast).dropLast
  if content.isEmpty then [] else (cutEntries content).map decodeEntry

theorem decodeEntry_entryChars {e : String × String} (h : ∀ c ∈ e.1.toList, c.isLower = true) :
    decodeEntry (entryChars e) = e := by
  have hkey : ∀ c ∈ e.1.toList, (c != '=') = true := by
    intro c hc
    simpa using (isReserved_of_isLower (h c hc)).2.1
  rw [decodeEntry, entryChars, List.takeWhile_append_of_pos hkey, List.dropWhile_append_of_pos hkey]
  simp [unescape_escape]

theorem entryChars_ne_nil (e : String × String) : entryChars e ≠ [] := by
  rw [entryChars]
  exact List.append_ne_nil_of_right_ne_nil _ (List.cons_ne_nil _ _)

theorem content_eq_nil_iff {t : Tag} : t.content = [] ↔ t.entries = [] := by
  unfold content
  cases t.entries with
  | nil => simp
  | cons e es =>
    have hne : entryChars e ≠ [] := entryChars_ne_nil e
    cases es with
    | nil => simp [hne]
    | cons e' es => simp [hne]

theorem decode_chars_eq (t : Tag) :
    decode t.chars = if t.content.isEmpty then [] else (cutEntries t.content).map decodeEntry := by
  have hcut : (((t.chars.drop "`parquet:\"".length).dropLast).dropLast) = t.content := by
    rw [chars_eq, List.append_assoc, List.drop_left' (by rfl)]
    show ((t.content ++ ['"', '\x60']).dropLast).dropLast = t.content
    rw [List.dropLast_append_of_ne_nil (by simp)]
    exact List.dropLast_concat
  rw [decode, hcut]

/-- A tag with plain keys is read back from its text, entry by entry. -/
theorem decode_chars {t : Tag} (h : t.PlainKeys) : decode t.chars = t.entries := by
  rw [decode_chars_eq]
  by_cases hnil : t.entries = []
  · rw [content_eq_nil_iff.mpr hnil, hnil]
    rfl
  · have hcontent : t.content.isEmpty = false := by
      simpa using mt content_eq_nil_iff.mp hnil
    have hcomma : ∀ p ∈ t.entries.map entryChars, ',' ∉ p := by
      intro p hp hc
      obtain ⟨e, he, rfl⟩ := List.mem_map.mp hp
      exact absurd (reserved_of_mem_entryChars (h e he) hc (by decide)) (by decide)
    -- The pieces that are cut out are the entries as they were spelled.
    rw [hcontent, if_neg Bool.false_ne_true, content,
      cutEntries_intercalate hcomma (by simpa using hnil), List.map_map]
    refine (List.map_congr_left ?_).trans (List.map_id _)
    intro e he
    exact decodeEntry_entryChars (h e he)

/-- Tags with plain keys are told apart by their texts. -/
theorem entries_eq_of_chars_eq {t u : Tag} (ht : t.PlainKeys) (hu : u.PlainKeys)
    (h : t.chars = u.chars) : t.entries = u.entries := by
  rw [← decode_chars ht, ← decode_chars hu, h]

/-! ## Tags built step by step -/

/-- How a tag is built: from nothing, by pushing an entry, by pushing an entry if there is a value
for it, or by taking over the entries of another tag, which is built in the same ways. -/
inductive Recipe where
  | new
  | push (r : Recipe) (key value : String)
  | pushOpt (r : Recipe) (key : String) (value : Option String)
  | extend (r other : Recipe)

/-- The tag that comes out. -/
def Recipe.tag : Recipe → Tag
  | .new => {}
  | .push r key value => r.tag.push key value
  | .pushOpt r key value => r.tag.pushOpt key value
  | .extend r other => r.tag ++ other.tag

/-- The pairs of key and value that were pushed, in the order in which they came into the tag. -/
def Recipe.pushed : Recipe → List (String × String)
  | .new => []
  | .push r key value => r.pushed ++ [(key, value)]
  | .pushOpt r key (some value) => r.pushed ++ [(key, value)]
  | .pushOpt r _ none => r.pushed
  | .extend r other => r.pushed ++ other.pushed

theorem Recipe.entries_tag (r : Recipe) : r.tag.entries = r.pushed := by
  induction r with
  | new => rfl
  | push r key value ih => rw [tag, entries_push, ih, pushed]
  | pushOpt r key value ih =>
    cases value with
    | none => exact ih
    | some value =>
      show (r.tag.push key value).entries = _
      rw [entries_push, ih, pushed]
  | extend r other ih ihother => rw [tag, entries_append, ih, ihother, pushed]

/-- Between the delimiters of a tag stands no delimiter, no backslash and no control character. -/
theorem not_delimiter_of_mem_content {t : Tag} (ht : t.PlainKeys) {c : Char}
    (h : c ∈ t.content) :
    c ≠ '\x60' ∧ c ≠ '"' ∧ c ≠ '\\' ∧ 0x20 ≤ c.toNat ∧ c.toNat ≠ 0x7f := by
  cases hc : isReserved c with
  | true =>
    rcases reserved_of_mem_content ht h hc with rfl | rfl
    · decide
    · decide
  | false =>
    simp only [isReserved, Bool.or_eq_false_iff, beq_eq_false_iff_ne,
      decide_eq_false_iff_not] at hc
    obtain ⟨⟨⟨⟨⟨⟨-, hquote⟩, hbackquote⟩, hbackslash⟩, -⟩, hcontrol⟩, hdelete⟩ := hc
    exact ⟨hbackquote, hquote, hbackslash, Nat.le_of_not_lt hcontrol, hdelete⟩

/-- However a tag with plain keys was built, the pairs that were pushed are read back from its text,
in order and each value as it was; and nothing between the delimiters could be taken for one. -/
theorem decode_text_recipe (r : Recipe)
    (h : ∀ e ∈ r.pushed, ∀ c ∈ e.1.toList, c.isLower = true) :
    decode r.tag.text.toList = r.pushed ∧
      ∃ content, r.tag.text.toList = "`parquet:\"".toList ++ content ++ "\"`".toList ∧
        ∀ c ∈ content, c ≠ '\x60' ∧ c ≠ '"' ∧ c ≠ '\\' ∧ 0x20 ≤ c.toNat ∧ c.toNat ≠ 0x7f := by
  have hplain : r.tag.PlainKeys := by
    unfold PlainKeys
    rw [r.entries_tag]
    exact h
  have htext : r.tag.text.toList = r.tag.chars := String.toList_ofList
  rw [htext]
  constructor
  · rw [decode_chars hplain, r.entries_tag]
  · exact ⟨r.tag.content, chars_eq r.tag, fun c hc => not_delimiter_of_mem_content hplain hc⟩

/-- A tag with another one in its middle, under values that try to look like entries, escapes and
the end of a tag. -/
def crowdedRecipe : Recipe :=
  .push (.extend (.pushOpt (.push .new "name" " a, type=%2C\"`\n") "length" none)
    (.push (.pushOpt .new "type" (some "")) "type" "=\\, ")) "repetitiontype" "%"

theorem decode_text_crowdedRecipe :
    (∀ e ∈ crowdedRecipe.pushed, ∀ c ∈ e.1.toList, c.isLower = true) ∧
      decode crowdedRecipe.tag.text.toList =
        [("name", " a, type=%2C\"`\n"), ("type", ""), ("type", "=\\, "),
          ("repetitiontype", "%")] ∧
      ∃ content, crowdedRecipe.tag.text.toList =
          "`parquet:\"".toList ++ content ++ "\"`".toList ∧
        ∀ c ∈ content, c ≠ '\x60' ∧ c ≠ '"' ∧ c ≠ '\\' ∧ 0x20 ≤ c.toNat ∧ c.toNat ≠ 0x7f := by
  have hplain : ∀ e ∈ crowdedRecipe.pushed, ∀ c ∈ e.1.toList, c.isLower = true := by
    simp [crowdedRecipe, Recipe.pushed]
  exact ⟨hplain, decode_text_recipe crowdedRecipe hplain⟩

end ParquetStruct.Struct.Tag
