/-
# ParquetStruct.Proofs.Json.Document — the texts of a value.

Reading the tokens of a value in any context leads to the place after the value, in the same
context; this carries the induction, since the context keeps what was read of the containers around.
It holds of every value without a cut, and a cut shows as a stray token.  In turn, the tokens that
were read at a place are those of its context, so what is read to the end has the tokens it was read
from.  A text is therefore a document of exactly one value, if it spells the tokens of any.
-/
import ParquetStruct.Json.Document
import ParquetStruct.Proofs.Json.Token

namespace ParquetStruct.Json

namespace Document

/-! ## Reading tokens -/

mutual

/-- Reading the tokens of a value where a value is due leads to the place after it. -/
theorem atValue_tokens : ∀ (v : Value), .stray ∉ v.tokens → ∀ (ctx : Context) (rest : List Token),
    atValue ctx (v.tokens ++ rest) = afterValue v ctx rest
  | .null, _, _, _ => rfl
  | .bool _, _, _, _ => rfl
  | .number _, _, _, _ => rfl
  | .string _, _, _, _ => rfl
  | .cut, h, _, _ => absurd (List.mem_singleton_self _) h
  | .array .close, _, _, _ => rfl
  | .array .cut, h, _, _ => absurd (List.mem_cons_of_mem _ (List.mem_singleton_self _)) h
  | .array (.item v items), h, ctx, rest => by
    have hv : .stray ∉ v.tokens ∧ .stray ∉ items.tokens [.comma] := by
      simpa [Value.tokens, Items.tokens] using h
    have htokens : (Value.array (.item v items)).tokens ++ rest =
        .openBracket :: (v.tokens ++ (items.tokens [.comma] ++ rest)) := by
      simp [Value.tokens, Items.tokens]
    rw [htokens, atValue, atValue_tokens v hv.1, afterValue_items items hv.2]
    rfl
  | .object .close, _, _, _ => rfl
  | .object .cut, h, _, _ => absurd (List.mem_cons_of_mem _ (List.mem_singleton_self _)) h
  | .object (.member key v members), h, ctx, rest => by
    have hv : .stray ∉ v.tokens ∧ .stray ∉ members.tokens [.comma] := by
      simpa [Value.tokens, Members.tokens] using h
    have htokens : (Value.object (.member key v members)).tokens ++ rest =
        .openBrace :: .string key :: .colon :: (v.tokens ++ (members.tokens [.comma] ++ rest)) := by
      simp [Value.tokens, Members.tokens]
    rw [htokens, atValue, atKey, atColon, atValue_tokens v hv.1, afterValue_members members hv.2]
    rfl

/-- Reading the further items of an array leads to the place after the array. -/
theorem afterValue_items : ∀ (items : Items), .stray ∉ items.tokens [.comma] →
    ∀ (v : Value) (before : List Value) (outer : Context) (rest : List Token),
      afterValue v (.item before outer) (items.tokens [.comma] ++ rest) =
        afterValue (.array (.ofReversed (v :: before) items)) outer rest
  | .close, _, _, _, _, _ => rfl
  | .cut, h, _, _, _, _ => absurd (List.mem_singleton_self _) h
  | .item w items, h, v, before, outer, rest => by
    have hw : .stray ∉ w.tokens ∧ .stray ∉ items.tokens [.comma] := by
      simpa [Items.tokens] using h
    have htokens : (Items.item w items).tokens [.comma] ++ rest =
        .comma :: (w.tokens ++ (items.tokens [.comma] ++ rest)) := by
      simp [Items.tokens]
    rw [htokens, afterValue, atValue_tokens w hw.1, afterValue_items items hw.2]
    rfl

/-- Reading the further members of an object leads to the place after the object. -/
theorem afterValue_members : ∀ (members : Members), .stray ∉ members.tokens [.comma] →
    ∀ (key : Option String) (v : Value) (before : List (Option String × Value)) (outer : Context)
      (rest : List Token),
      afterValue v (.member before key outer) (members.tokens [.comma] ++ rest) =
        afterValue (.object (.ofReversed ((key, v) :: before) members)) outer rest
  | .close, _, _, _, _, _, _ => rfl
  | .cut, h, _, _, _, _, _ => absurd (List.mem_singleton_self _) h
  | .member key w members, h, key', v, before, outer, rest => by
    have hw : .stray ∉ w.tokens ∧ .stray ∉ members.tokens [.comma] := by
      simpa [Members.tokens] using h
    have htokens : (Members.member key w members).tokens [.comma] ++ rest =
        .comma :: .string key :: .colon :: (w.tokens ++ (members.tokens [.comma] ++ rest)) := by
      simp [Members.tokens]
    rw [htokens, afterValue, atKey, atColon, atValue_tokens w hw.1, afterValue_members members hw.2]
    rfl

end

/-- The tokens of a value without a cut spell a document of this value and nothing more. -/
theorem ofTokens_tokens {v : Value} (h : .stray ∉ v.tokens) : ofTokens v.tokens = ⟨v, true⟩ := by
  have hv := atValue_tokens v h .top []
  rw [List.append_nil] at hv
  rw [ofTokens, hv]
  rfl

/-! ## Tokens that were read -/

/-- The tokens of items, last first, with a comma after each. -/
def itemsBefore : List Value → List Token
  | [] => []
  | v :: before => itemsBefore before ++ v.tokens ++ [.comma]

/-- The tokens of members, last first, with a comma after each. -/
def membersBefore : List (Option String × Value) → List Token
  | [] => []
  | (key, v) :: before => membersBefore before ++ .string key :: .colon :: v.tokens ++ [.comma]

/-- The tokens of a document up to a place in it. -/
def tokensBefore : Context → List Token
  | .top => []
  | .item before outer => tokensBefore outer ++ .openBracket :: itemsBefore before
  | .member before key outer =>
    tokensBefore outer ++ .openBrace :: membersBefore before ++ [.string key] ++ [.colon]

theorem tokens_array_ofReversed (before : List Value) (v : Value) (items : Items) :
    (Value.array (.ofReversed (v :: before) items)).tokens =
      .openBracket :: itemsBefore before ++ v.tokens ++ items.tokens [.comma] := by
  show .openBracket :: (Items.ofReversed before (.item v items)).tokens [] = _
  induction before generalizing v items with
  | nil => simp [itemsBefore, Items.tokens]
  | cons u before ih =>
    rw [Items.ofReversed_cons, ih, itemsBefore, Items.tokens]
    simp

theorem tokens_object_ofReversed (before : List (Option String × Value)) (key : Option String)
    (v : Value) (members : Members) :
    (Value.object (.ofReversed ((key, v) :: before) members)).tokens =
      .openBrace :: membersBefore before ++ .string key :: .colon :: v.tokens ++
        members.tokens [.comma] := by
  show .openBrace :: (Members.ofReversed before (.member key v members)).tokens [] = _
  induction before generalizing key v members with
  | nil => simp [membersBefore, Members.tokens]
  | cons m before ih =>
    obtain ⟨key', v'⟩ := m
    rw [Members.ofReversed_cons, ih, membersBefore, Members.tokens]
    simp

/-- A value made of some tokens that were read and of the rest, which holds no stray one. -/
structure IsMadeOf (w : Value) (before rest : List Token) : Prop where
  tokens_eq : w.tokens = before ++ rest
  stray_not_mem : .stray ∉ rest

theorem IsMadeOf.cons {w : Value} {before rest : List Token} {t : Token}
    (h : IsMadeOf w (before ++ [t]) rest) (ht : t ≠ .stray) : IsMadeOf w before (t :: rest) := by
  refine ⟨?_, ?_⟩
  · rw [h.tokens_eq, List.append_assoc, List.singleton_append]
  · rw [List.mem_cons, not_or]
    exact ⟨ht.symm, h.stray_not_mem⟩

theorem cutAfter_ne {v w : Value} {ctx : Context} : cutAfter v ctx ≠ ⟨w, true⟩ := nofun

mutual

/-- What is read to the end from the place of a value on is made of the tokens before it, and of
those after it. -/
theorem isMadeOf_atValue : ∀ (ts : List Token) (ctx : Context) {w : Value},
    atValue ctx ts = ⟨w, true⟩ → IsMadeOf w (tokensBefore ctx) ts
  | [], _, _, h => absurd h cutAfter_ne
  | t :: ts, ctx, w, h => by
    cases t with
    | null => exact (isMadeOf_afterValue ts .null ctx h).cons nofun
    | bool b => exact (isMadeOf_afterValue ts (.bool b) ctx h).cons nofun
    | number n => exact (isMadeOf_afterValue ts (.number n) ctx h).cons nofun
    | string s => exact (isMadeOf_afterValue ts (.string s) ctx h).cons nofun
    | openBracket => exact (isMadeOf_atValue ts (.item [] ctx) h).cons nofun
    | openBrace => exact (isMadeOf_atKey ts [] ctx h).cons nofun
    | closeBracket =>
      cases ctx with
      | item before outer =>
        cases before with
        | nil =>
          have hw := isMadeOf_afterValue ts (.array .close) outer h
          refine IsMadeOf.cons ?_ nofun
          rw [tokensBefore, itemsBefore, List.append_assoc, List.singleton_append]
          exact hw
        | cons _ _ => exact absurd h cutAfter_ne
      | _ => exact absurd h cutAfter_ne
    | _ => exact absurd h cutAfter_ne

/-- What is read to the end from the place of a key on is made of the tokens before it, and of those
after it. -/
theorem isMadeOf_atKey : ∀ (ts : List Token) (before : List (Option String × Value))
    (outer : Context) {w : Value}, atKey before outer ts = ⟨w, true⟩ →
      IsMadeOf w (tokensBefore outer ++ .openBrace :: membersBefore before) ts
  | [], _, _, _, h => absurd h cutAfter_ne
  | t :: ts, before, outer, w, h => by
    cases t with
    | string key => exact (isMadeOf_atColon ts before key outer h).cons nofun
    | closeBrace =>
      cases before with
      | nil =>
        have hw := isMadeOf_afterValue ts (.object .close) outer h
        refine IsMadeOf.cons ?_ nofun
        rw [membersBefore, List.append_assoc, List.singleton_append]
        exact hw
      | cons _ _ => exact absurd h cutAfter_ne
    | _ => exact absurd h cutAfter_ne

/-- What is read to the end from the place after a key on is made of the tokens up to there, and of
those after it. -/
theorem isMadeOf_atColon : ∀ (ts : List Token) (before : List (Option String × Value))
    (key : Option String) (outer : Context) {w : Value}, atColon before key outer ts = ⟨w, true⟩ →
      IsMadeOf w (tokensBefore outer ++ .openBrace :: membersBefore before ++ [.string key]) ts
  | [], _, _, _, _, h => absurd h cutAfter_ne
  | t :: ts, before, key, outer, w, h => by
    cases t with
    | colon => exact (isMadeOf_atValue ts (.member before key outer) h).cons nofun
    | _ => exact absurd h cutAfter_ne

/-- What is read to the end from the place after a value on is made of the tokens up to there, and
of those after it. -/
theorem isMadeOf_afterValue : ∀ (ts : List Token) (v : Value) (ctx : Context) {w : Value},
    afterValue v ctx ts = ⟨w, true⟩ → IsMadeOf w (tokensBefore ctx ++ v.tokens) ts
  | [], v, ctx, w, h => by
    cases ctx with
    | top =>
      cases h
      exact ⟨(List.append_nil _).symm, List.not_mem_nil⟩
    | _ => exact absurd h cutAfter_ne
  | t :: ts, v, .top, w, h => absurd h cutAfter_ne
  | t :: ts, v, .item before outer, w, h => by
    cases t with
    | comma =>
      have hw := isMadeOf_atValue ts (.item (v :: before) outer) h
      refine IsMadeOf.cons ?_ nofun
      simpa [tokensBefore, itemsBefore] using hw
    | closeBracket =>
      have hw := isMadeOf_afterValue ts (.array (.ofReversed (v :: before) .close)) outer h
      rw [tokens_array_ofReversed] at hw
      refine IsMadeOf.cons ?_ nofun
      simpa [tokensBefore, Items.tokens] using hw
    | _ => exact absurd h cutAfter_ne
  | t :: ts, v, .member before key outer, w, h => by
    cases t with
    | comma =>
      have hw := isMadeOf_atKey ts ((key, v) :: before) outer h
      refine IsMadeOf.cons ?_ nofun
      simpa [tokensBefore, membersBefore] using hw
    | closeBrace =>
      have hw := isMadeOf_afterValue ts (.object (.ofReversed ((key, v) :: before) .close)) outer h
      rw [tokens_object_ofReversed] at hw
      refine IsMadeOf.cons ?_ nofun
      simpa [tokensBefore, Members.tokens] using hw
    | _ => exact absurd h cutAfter_ne

end

/-- What is read to the end has the tokens it was read from, none of them stray. -/
theorem tokens_of_ofTokens {ts : List Token} {v : Value} (h : ofTokens ts = ⟨v, true⟩) :
    v.tokens = ts ∧ .stray ∉ ts := by
  have hv := isMadeOf_atValue ts .top h
  exact ⟨hv.tokens_eq, hv.stray_not_mem⟩

end Document

/-! ## Numbers apart -/

theorem numbersApart_cons {t : Token} (h : t.isNumber = false) {ts : List Token}
    (hts : NumbersApart ts) : NumbersApart (t :: ts) := by
  refine List.isChain_cons.mpr ⟨?_, hts⟩
  intro u _ ht
  rw [h] at ht
  cases ht

theorem numbersApart_single (t : Token) {ts : List Token}
    (hfirst : ∀ u ∈ ts.head?, u.isNumber = false) (hts : NumbersApart ts) :
    NumbersApart (t :: ts) :=
  List.isChain_cons.mpr ⟨fun u hu _ => hfirst u hu, hts⟩

theorem head?_itemsTokens (items : Items) (rest : List Token) :
    ∀ u ∈ (items.tokens [.comma] ++ rest).head?, u.isNumber = false := by
  cases items with
  | close => simp [Items.tokens, Token.isNumber]
  | item v items => simp [Items.tokens, Token.isNumber]
  | cut => simp [Items.tokens, Token.isNumber]

theorem head?_membersTokens (members : Members) (rest : List Token) :
    ∀ u ∈ (members.tokens [.comma] ++ rest).head?, u.isNumber = false := by
  cases members with
  | close => simp [Members.tokens, Token.isNumber]
  | member key v members => simp [Members.tokens, Token.isNumber]
  | cut => simp [Members.tokens, Token.isNumber]

mutual

/-- The numbers of a value stand apart, and they stay so if no number comes after the value. -/
theorem Value.numbersApart : ∀ (v : Value) {rest : List Token},
    (∀ u ∈ rest.head?, u.isNumber = false) → NumbersApart rest → NumbersApart (v.tokens ++ rest)
  | .null, _, hfirst, hrest => numbersApart_single _ hfirst hrest
  | .bool _, _, hfirst, hrest => numbersApart_single _ hfirst hrest
  | .number _, _, hfirst, hrest => numbersApart_single _ hfirst hrest
  | .string _, _, hfirst, hrest => numbersApart_single _ hfirst hrest
  | .cut, _, hfirst, hrest => numbersApart_single _ hfirst hrest
  | .array items, _, _, hrest =>
    numbersApart_cons rfl (items.numbersApart [] (fun h => h) hrest)
  | .object members, _, _, hrest =>
    numbersApart_cons rfl (members.numbersApart [] (fun h => h) hrest)

theorem Items.numbersApart : ∀ (items : Items) (separator : List Token),
    (∀ {ts}, NumbersApart ts → NumbersApart (separator ++ ts)) → ∀ {rest : List Token},
      NumbersApart rest → NumbersApart (items.tokens separator ++ rest)
  | .close, _, _, _, hrest => numbersApart_cons rfl hrest
  | .cut, _, _, _, hrest => numbersApart_cons rfl hrest
  | .item v items, separator, hseparator, rest, hrest => by
    have hitems : NumbersApart (items.tokens [.comma] ++ rest) :=
      items.numbersApart [.comma] (fun h => numbersApart_cons rfl h) hrest
    have hv := hseparator (v.numbersApart (head?_itemsTokens items rest) hitems)
    rw [Items.tokens, List.append_assoc, List.append_assoc]
    exact hv

theorem Members.numbersApart : ∀ (members : Members) (separator : List Token),
    (∀ {ts}, NumbersApart ts → NumbersApart (separator ++ ts)) → ∀ {rest : List Token},
      NumbersApart rest → NumbersApart (members.tokens separator ++ rest)
  | .close, _, _, _, hrest => numbersApart_cons rfl hrest
  | .cut, _, _, _, hrest => numbersApart_cons rfl hrest
  | .member key v members, separator, hseparator, rest, hrest => by
    have hmembers : NumbersApart (members.tokens [.comma] ++ rest) :=
      members.numbersApart [.comma] (fun h => numbersApart_cons rfl h) hrest
    have hv := v.numbersApart (head?_membersTokens members rest) hmembers
    have hkey := hseparator (numbersApart_cons (t := .string key) rfl
      (numbersApart_cons (t := .colon) rfl hv))
    rw [Members.tokens, List.append_assoc, List.append_assoc]
    exact hkey

end

/-- A text is a document of a value and nothing more exactly if it spells the tokens of the
value. -/
theorem ofChars_eq_iff {v : Value} {cs : List Char} :
    Document.ofChars cs = ⟨v, true⟩ ↔ SpellsTokens v.tokens cs := by
  constructor
  · intro h
    obtain ⟨htokens, hstray⟩ := Document.tokens_of_ofTokens h
    rw [htokens]
    exact spellsTokens_tokens cs hstray
  · intro h
    have hapart : NumbersApart (v.tokens ++ []) := v.numbersApart nofun .nil
    rw [List.append_nil] at hapart
    rw [Document.ofChars, h.tokens_eq hapart]
    exact Document.ofTokens_tokens h.stray_not_mem

/-- The text of a value of plain tokens spells a document of this value and nothing more, laid out
or not. -/
theorem ofChars_tokens {v : Value} (h : ∀ t ∈ v.tokens, t.IsPlain) (depth : Nat) :
    Document.ofChars (compactChars v.tokens) = ⟨v, true⟩ ∧
      Document.ofChars (prettyChars depth v.tokens) = ⟨v, true⟩ :=
  ⟨ofChars_eq_iff.mpr (spellsTokens_compactChars h),
    ofChars_eq_iff.mpr (spellsTokens_prettyChars h depth)⟩

end ParquetStruct.Json
