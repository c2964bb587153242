/-
# ParquetStruct.Proofs.Raw.Grammar — the values that denote a schema tree.

A node is an object of fields or an array of them, a member of an enumeration is a name or an object
with that name as its only key, and parameters are again an object or an array.  Each of these
containers takes up one level of nesting, of which so many are left; values under unknown keys take
up none.  Here the values are described without a reader, and single values and annotations are
shown to be read exactly if they denote something.
-/
import ParquetStruct.Proofs.Json.Number
import ParquetStruct.Proofs.Outcome
import ParquetStruct.Raw.Reader

namespace ParquetStruct.Json

/-- The items of a whole array. -/
def Items.ofList : List Value → Items
  | [] => .close
  | v :: vs => .item v (ofList vs)

/-- The values that stand under a key, in order. -/
def valuesAt (key : String) (ms : List (String × Value)) : List Value :=
  (ms.filter fun m => m.1 == key).map Prod.snd

@[simp] theorem valuesAt_nil (key : String) : valuesAt key [] = [] := rfl

theorem valuesAt_cons_self (key : String) (v : Value) (ms : List (String × Value)) :
    valuesAt key ((key, v) :: ms) = v :: valuesAt key ms := by
  simp [valuesAt]

theorem valuesAt_cons_of_ne {key key' : String} (h : key' ≠ key) (v : Value)
    (ms : List (String × Value)) : valuesAt key ((key', v) :: ms) = valuesAt key ms := by
  simp [valuesAt, h]

end ParquetStruct.Json

namespace ParquetStruct.Raw

open ParquetStruct.Json

variable {α β : Type}

/-! ## The grammar -/

/-- A literal of digits alone denotes an integer, also behind a minus sign.  Minus zero is not an
integer, since no integer has that sign: it denotes a double. -/
inductive DenotesInteger : Value → Int → Prop
  | positive (digits : List Char) :
      DenotesInteger (.number { whole := digits }) (Literal.natOf digits)
  | negative {digits : List Char} (h : Literal.natOf digits ≠ 0) :
      DenotesInteger (.number { negative := true, whole := digits }) (-(Literal.natOf digits : Int))

/-- A value denotes a 32-bit integer. -/
def DenotesInt32 (v : Value) (n : Int32) : Prop := DenotesInteger v n.toInt

/-- A value denotes an 8-bit integer. -/
def DenotesInt8 (v : Value) (n : Int8) : Prop := DenotesInteger v n.toInt

/-- A value denotes a truth value. -/
def DenotesBool (v : Value) (b : Bool) : Prop := v = .bool b

/-- A member of an enumeration is denoted by its name, or by an object that maps it to `null`. -/
inductive DenotesName (name : α → String) : Nat → Value → α → Prop
  | bare (levels : Nat) (a : α) : DenotesName name levels (.string (some (name a))) a
  | applied (levels : Nat) (a : α) :
      DenotesName name (levels + 1) (.object (.ofList [(name a, .null)])) a

/-- Two parameters are denoted by an object that holds each of them once, under its key, or by an
array of the two. -/
inductive DenotesPair (first second : String) (P : Value → α → Prop) (Q : Value → β → Prop) :
    Value → α × β → Prop
  | object {ms : List (String × Value)} {v w : Value} {a : α} {b : β}
      (hfirst : valuesAt first ms = [v]) (hsecond : valuesAt second ms = [w]) (ha : P v a)
      (hb : Q w b) : DenotesPair first second P Q (.object (.ofList ms)) (a, b)
  | array {v w : Value} {a : α} {b : β} (ha : P v a) (hb : Q w b) :
      DenotesPair first second P Q (.array (.ofList [v, w])) (a, b)

/-- Whether a logical type has parameters. -/
def hasParameters : LogicalType → Bool
  | .decimal .. => true
  | .time .. => true
  | .timestamp .. => true
  | .integer .. => true
  | _ => false

/-- The name of a logical type with parameters. -/
def Parametric.name : Parametric → String
  | .decimal => "DECIMAL"
  | .time => "TIME"
  | .timestamp => "TIMESTAMP"
  | .integer => "INTEGER"

/-- The parameters of a logical type are denoted with so many levels left for what is in them. -/
inductive DenotesParameters (levels : Nat) (v : Value) : Parametric → LogicalType → Prop
  | decimal {scale precision : Int32}
      (h : DenotesPair "scale" "precision" DenotesInt32 DenotesInt32 v (scale, precision)) :
      DenotesParameters levels v .decimal (.decimal scale precision)
  | time {utc : Bool} {unit : TimeUnit}
      (h : DenotesPair "utc" "unit" DenotesBool (DenotesName TimeUnit.name levels) v (utc, unit)) :
      DenotesParameters levels v .time (.time utc unit)
  | timestamp {utc : Bool} {unit : TimeUnit}
      (h : DenotesPair "utc" "unit" DenotesBool (DenotesName TimeUnit.name levels) v (utc, unit)) :
      DenotesParameters levels v .timestamp (.timestamp utc unit)
  | integer {bitWidth : Int8} {signed : Bool}
      (h : DenotesPair "bit_width" "signed" DenotesInt8 DenotesBool v (bitWidth, signed)) :
      DenotesParameters levels v .integer (.integer bitWidth signed)

/-- A logical type without parameters is denoted like a member of an enumeration, one with
parameters by an object that maps its name to them. -/
inductive DenotesLogical : Nat → Value → LogicalType → Prop
  | plain {levels : Nat} {v : Value} {l : LogicalType} (hplain : hasParameters l = false)
      (h : DenotesName LogicalType.name levels v l) : DenotesLogical levels v l
  | parametric {levels : Nat} {v : Value} {p : Parametric} {l : LogicalType}
      (h : DenotesParameters levels v p l) :
      DenotesLogical (levels + 2) (.object (.ofList [(p.name, v)])) l

/-- At most one value stands under the key of an optional field; no value and `null` leave the field
unset. -/
inductive DenotesOption (P : Value → α → Prop) : List Value → Option α → Prop
  | absent : DenotesOption P [] none
  | null : DenotesOption P [.null] none
  | given {v : Value} {a : α} (h : P v a) : DenotesOption P [v] (some a)

/-- The fields of a node, its children apart, are denoted by members, of which those under unknown
keys do not matter. -/
structure DenotesFields (levels : Nat) (ms : List (String × Value)) (n : Node) : Prop where
  name : valuesAt "name" ms = [.string (some n.name)]
  physicalCode : DenotesOption DenotesInt32 (valuesAt "physical_type" ms) n.physicalCode
  typeLength : DenotesOption DenotesInt32 (valuesAt "type_length" ms) n.typeLength
  convertedType : DenotesOption (DenotesName ConvertedType.name levels)
    (valuesAt "converted_type" ms) n.convertedType
  logicalType : DenotesOption (DenotesLogical levels) (valuesAt "logical_type" ms) n.logicalType
  repetitionType : DenotesOption (DenotesName Repetition.name levels)
    (valuesAt "repetition_type" ms) n.repetitionType

/-- A record is an object of members, or an array of values for the keys of a node, from the first
on.  As the name cannot be left out, no empty array denotes a node. -/
inductive IsRecord : Value → List (String × Value) → Prop
  | object (ms : List (String × Value)) : IsRecord (.object (.ofList ms)) ms
  | array {vs : List Value} (hlength : vs.length ≤ Key.all.length) :
      IsRecord (.array (.ofList vs)) ((Key.all.map Key.text).zip vs)

mutual

/-- A value denotes a node, with so many levels of nesting left. -/
inductive DenotesNode : Nat → Value → Node → Prop
  | mk {levels : Nat} {v : Value} {ms : List (String × Value)} {n : Node} (hrecord : IsRecord v ms)
      (hfields : DenotesFields levels ms n)
      (hchildren : DenotesChildren levels (valuesAt "children" ms) n.children) :
      DenotesNode (levels + 1) v n

/-- The children of a node are denoted by an array, or by nothing if there are none. -/
inductive DenotesChildren : Nat → List Value → List Node → Prop
  | absent (levels : Nat) : DenotesChildren levels [] []
  | array {levels : Nat} {items : Items} {cs : List Node} (h : DenotesItems levels items cs) :
      DenotesChildren (levels + 1) [.array items] cs

/-- Items denote nodes one by one. -/
inductive DenotesItems : Nat → Items → List Node → Prop
  | nil (levels : Nat) : DenotesItems levels .close []
  | cons {levels : Nat} {v : Value} {items : Items} {c : Node} {cs : List Node}
      (hv : DenotesNode levels v c) (h : DenotesItems levels items cs) :
      DenotesItems levels (.item v items) (c :: cs)

end

/-! ## Single values -/

theorem readString_eq_ok_iff {v : Value} {s : String} :
    readString v = .ok s ↔ v = .string (some s) := by
  constructor
  · intro h
    unfold readString at h
    split at h
    · cases h
      rfl
    · cases h
  · rintro rfl
    rfl

theorem readBool_eq_ok_iff {v : Value} {b : Bool} : readBool v = .ok b ↔ DenotesBool v b := by
  constructor
  · intro h
    unfold readBool at h
    split at h
    · cases h
      rfl
    · cases h
  · rintro rfl
    rfl

theorem readNothing_eq_ok_iff {v : Value} {u : Unit} : readNothing v = .ok u ↔ v = .null := by
  constructor
  · intro h
    unfold readNothing at h
    split at h
    · rfl
    · cases h
  · rintro rfl
    rfl

/-- A literal is taken for an integer if it denotes one that fits 64 bits. -/
theorem integer?_eq_some_iff {n : Literal} {i : Int} :
    n.integer? = some i ↔ DenotesInteger (.number n) i ∧
      -(Literal.maxNegative : Int) ≤ i ∧ i ≤ Literal.maxWord := by
  constructor
  · intro h
    obtain ⟨negative, whole, fraction, exponent⟩ := n
    have hwhole : fraction = [] ∧ exponent = none := by
      unfold Literal.integer? at h
      split at h
      · rename_i hparts
        simpa using hparts
      · cases h
    obtain ⟨rfl, rfl⟩ := hwhole
    rw [Literal.integer?_whole] at h
    cases negative with
    | true =>
      rw [if_pos rfl] at h
      split at h
      · cases h
        exact ⟨.negative (by omega), by omega, by omega⟩
      · cases h
    | false =>
      rw [if_neg Bool.false_ne_true] at h
      split at h
      · cases h
        exact ⟨.positive whole, by omega, by omega⟩
      · cases h
  · rintro ⟨h, hlow, hhigh⟩
    cases h with
    | positive digits =>
      rw [Literal.integer?_whole, if_neg Bool.false_ne_true, if_pos (by omega)]
    | negative hne =>
      rw [Literal.integer?_whole, if_pos rfl, if_pos (by omega)]

theorem ofValue?_eq_integer_iff {v : Value} {i : Int} :
    Found.ofValue? v = some (.integer i) ↔ DenotesInteger v i ∧
      -(Literal.maxNegative : Int) ≤ i ∧ i ≤ Literal.maxWord := by
  constructor
  · intro h
    cases v with
    | number n =>
      rw [Found.ofValue?] at h
      split at h
      · rename_i hn
        cases h
        exact integer?_eq_some_iff.mp hn
      · obtain ⟨_, -, he⟩ := Option.map_eq_some_iff.mp h
        cases he
    | string s =>
      obtain ⟨_, -, he⟩ := Option.map_eq_some_iff.mp h
      cases he
    | _ => cases h
  · rintro ⟨h, hlow, hhigh⟩
    cases h with
    | positive digits =>
      rw [Found.ofValue?, integer?_eq_some_iff.mpr ⟨.positive digits, hlow, hhigh⟩]
    | negative hne =>
      rw [Found.ofValue?, integer?_eq_some_iff.mpr ⟨.negative hne, hlow, hhigh⟩]

theorem readInteger_eq_ok_iff {low high : Int} {expected : Expected} {v : Value} {i : Int}
    (hbounds : -(Literal.maxNegative : Int) ≤ low ∧ high ≤ Literal.maxWord) :
    readInteger low high expected v = .ok i ↔ DenotesInteger v i ∧ low ≤ i ∧ i ≤ high := by
  constructor
  · intro h
    unfold readInteger at h
    split at h
    · rename_i hv
      split at h
      · rename_i hrange
        cases h
        exact ⟨(ofValue?_eq_integer_iff.mp hv).1, hrange⟩
      · cases h
    · cases h
  · rintro ⟨h, hrange⟩
    have hv := ofValue?_eq_integer_iff.mpr ⟨h, by omega, by omega⟩
    rw [readInteger, hv]
    exact if_pos hrange

theorem map_eq_ok_iff {ε : Type} {x : Except ε α} {f : α → β} {b : β} :
    x.map f = .ok b ↔ ∃ a, x = .ok a ∧ f a = b := by
  cases x with
  | error e => simp [Except.map]
  | ok a => simp [Except.map]

/-- A 32-bit integer is read exactly from what denotes it. -/
theorem readInt32_eq_ok_iff {v : Value} {n : Int32} : readInt32 v = .ok n ↔ DenotesInt32 v n := by
  rw [readInt32, map_eq_ok_iff]
  constructor
  · rintro ⟨i, hi, rfl⟩
    obtain ⟨h, hlow, hhigh⟩ := (readInteger_eq_ok_iff (by decide)).mp hi
    rw [DenotesInt32, Int32.toInt_ofInt_of_le hlow (by omega)]
    exact h
  · intro h
    exact ⟨n.toInt, (readInteger_eq_ok_iff (by decide)).mpr ⟨h, n.le_toInt, n.toInt_le⟩,
      Int32.ofInt_toInt n⟩

/-- An 8-bit integer is read exactly from what denotes it. -/
theorem readInt8_eq_ok_iff {v : Value} {n : Int8} : readInt8 v = .ok n ↔ DenotesInt8 v n := by
  rw [readInt8, map_eq_ok_iff]
  constructor
  · rintro ⟨i, hi, rfl⟩
    obtain ⟨h, hlow, hhigh⟩ := (readInteger_eq_ok_iff (by decide)).mp hi
    rw [DenotesInt8, Int8.toInt_ofInt_of_le hlow (by omega)]
    exact h
  · intro h
    exact ⟨n.toInt, (readInteger_eq_ok_iff (by decide)).mpr ⟨h, n.le_toInt, n.toInt_le⟩,
      Int8.ofInt_toInt n⟩

/-! ## Members of enumerations -/

theorem lookUp_eq_ok_iff {ofName? : String → Option α} {known : List String} {s : String} {a : α} :
    lookUp ofName? known s = .ok a ↔ ofName? s = some a := by
  unfold lookUp
  cases ofName? s with
  | none => simp
  | some b => simp

/-- A member of an enumeration is read from its name, or from the only member of an object. -/
theorem readVariant_eq_ok_iff {bare : String → Except Fault α}
    {applied : Nat → String → Value → Except Fault α} {levels : Nat} {v : Value} {a : α} :
    readVariant bare applied levels v = .ok a ↔
      (∃ s, v = .string (some s) ∧ bare s = .ok a) ∨
        ∃ k s w, levels = k + 1 ∧ v = .object (.ofList [(s, w)]) ∧ applied k s w = .ok a := by
  constructor
  · intro h
    unfold readVariant at h
    split at h
    · exact Or.inl ⟨_, rfl, h⟩
    · obtain ⟨b, hb, hrest⟩ := bind_eq_ok_iff.mp h
      split at hrest
      · cases hrest
        exact Or.inr ⟨_, _, _, rfl, rfl, hb⟩
      · cases hrest
    · cases h
  · rintro (⟨s, rfl, h⟩ | ⟨k, s, w, rfl, rfl, h⟩)
    · unfold readVariant
      exact h
    · show (applied k s w >>= fun b => .ok b) = _
      rw [h, ok_bind]

/-- A member of an enumeration without parameters is read exactly from what denotes it. -/
theorem readName_eq_ok_iff {ofName? : String → Option α} {known : List String} {name : α → String}
    (hname : ∀ s a, ofName? s = some a ↔ s = name a) {levels : Nat} {v : Value} {a : α} :
    readName ofName? known levels v = .ok a ↔ DenotesName name levels v a := by
  rw [readName, readVariant_eq_ok_iff]
  constructor
  · rintro (⟨s, rfl, h⟩ | ⟨k, s, w, rfl, rfl, h⟩)
    · rw [lookUp_eq_ok_iff, hname] at h
      rw [h]
      exact .bare levels a
    · obtain ⟨b, hb, h⟩ := bind_eq_ok_iff.mp h
      obtain ⟨u, hu, h⟩ := bind_eq_ok_iff.mp h
      cases h
      rw [lookUp_eq_ok_iff, hname] at hb
      rw [readNothing_eq_ok_iff.mp hu, hb]
      exact .applied k _
  · intro h
    have hlookUp : lookUp ofName? known (name a) = .ok a :=
      lookUp_eq_ok_iff.mpr ((hname _ _).mpr rfl)
    cases h with
    | bare => exact Or.inl ⟨_, rfl, hlookUp⟩
    | applied k =>
      refine Or.inr ⟨k, _, _, rfl, rfl, ?_⟩
      rw [hlookUp]
      rfl

/-- What is found by its name has that name. -/
theorem name_eq_of_find? {all : List α} {name : α → String} {s : String} {a : α}
    (h : (all.find? fun a => name a == s) = some a) : s = name a := by
  have hname := List.find?_some h
  rw [beq_iff_eq] at hname
  exact hname.symm

theorem readConverted_eq_ok_iff {levels : Nat} {v : Value} {c : ConvertedType} :
    readConverted levels v = .ok c ↔ DenotesName ConvertedType.name levels v c := by
  have hname (s : String) (c : ConvertedType) : ConvertedType.ofName? s = some c ↔ s = c.name :=
    ⟨name_eq_of_find?, fun h => h ▸ ConvertedType.ofName?_name c⟩
  exact readName_eq_ok_iff hname

theorem readRepetition_eq_ok_iff {levels : Nat} {v : Value} {r : Repetition} :
    readRepetition levels v = .ok r ↔ DenotesName Repetition.name levels v r := by
  have hname (s : String) (r : Repetition) : Repetition.ofName? s = some r ↔ s = r.name :=
    ⟨name_eq_of_find?, fun h => h ▸ Repetition.ofName?_name r⟩
  exact readName_eq_ok_iff hname

theorem readUnit_eq_ok_iff {levels : Nat} {v : Value} {u : TimeUnit} :
    readUnit levels v = .ok u ↔ DenotesName TimeUnit.name levels v u := by
  have hname (s : String) (u : TimeUnit) : TimeUnit.ofName? s = some u ↔ s = u.name :=
    ⟨name_eq_of_find?, fun h => h ▸ TimeUnit.ofName?_name u⟩
  exact readName_eq_ok_iff hname

/-! ## Values under one key -/

/-- What was read under a key before and what has been read under it afterwards, given the values
that stand under it in between: there is at most one value, and only if there was none before. -/
inductive Reads (read : Value → Except Fault α) (a : Option α) : List Value → Option α → Prop
  | none : Reads read a [] a
  | one {v : Value} {b : α} (hnew : a = Option.none) (hread : read v = .ok b) :
      Reads read a [v] (some b)

theorem reads_nil_iff {read : Value → Except Fault α} {a x : Option α} :
    Reads read a [] x ↔ x = a := by
  constructor
  · intro h
    cases h
    rfl
  · rintro rfl
    exact .none

/-- Of the values under a key the first is read if nothing was, and then no other may be left. -/
theorem reads_cons_iff {read : Value → Except Fault α} {a x : Option α} {v : Value}
    {vs : List Value} :
    Reads read a (v :: vs) x ↔ a = none ∧ ∃ b, read v = .ok b ∧ Reads read (some b) vs x := by
  constructor
  · intro h
    cases h with
    | one hnew hread => exact ⟨hnew, _, hread, .none⟩
  · rintro ⟨rfl, b, hread, h⟩
    cases h with
    | none => exact .one rfl hread
    | one hnew => cases hnew

/-! ## Parameters -/

variable {first second : String} {readFirst : Value → Except Fault α}
  {readSecond : Value → Except Fault β}

theorem readPairMembers_ofList (hne : first ≠ second) {a : Option α} {b : Option β} {x : α} {y : β}
    {ms : List (String × Value)} :
    readPairMembers first second readFirst readSecond a b (.ofList ms) = .ok (x, y) ↔
      Reads readFirst a (valuesAt first ms) (some x) ∧
        Reads readSecond b (valuesAt second ms) (some y) := by
  induction ms generalizing a b with
  | nil =>
    rw [valuesAt_nil, valuesAt_nil, reads_nil_iff, reads_nil_iff]
    cases a <;> cases b <;> simp [Members.ofList, readPairMembers, eq_comm]
  | cons m ms ih =>
    obtain ⟨key, v⟩ := m
    rw [Members.ofList, readPairMembers]
    -- A value under one of the two keys is read if none was yet; any other is passed over.
    by_cases hfirst : key = first
    · subst hfirst
      rw [if_pos rfl, valuesAt_cons_self, valuesAt_cons_of_ne hne, reads_cons_iff]
      cases a with
      | some a => simp
      | none => simp [bind_eq_ok_iff, ih, and_assoc, ← exists_and_right]
    · rw [if_neg hfirst, valuesAt_cons_of_ne hfirst]
      by_cases hsecond : key = second
      · subst hsecond
        rw [if_pos rfl, valuesAt_cons_self, reads_cons_iff]
        cases b with
        | some b => simp
        | none => simp [bind_eq_ok_iff, ih, and_left_comm, ← exists_and_left]
      · rw [if_neg hsecond, valuesAt_cons_of_ne hsecond, ih]

/-- Members that can be read are whole and have keys with text. -/
theorem exists_eq_ofList_of_readPairMembers : ∀ {ms : Members} {a : Option α} {b : Option β}
    {p : α × β}, readPairMembers first second readFirst readSecond a b ms = .ok p →
      ∃ l, ms = .ofList l
  | .close, _, _, _, _ => ⟨[], rfl⟩
  | .cut, _, _, _, h => by cases h
  | .member none _ _, _, _, _, h => by cases h
  | .member (some key) v ms, a, b, p, h => by
    have hms : ∃ a' b', readPairMembers first second readFirst readSecond a' b' ms = .ok p := by
      rw [readPairMembers] at h
      split at h
      · split at h
        · cases h
        · obtain ⟨a', -, h⟩ := bind_eq_ok_iff.mp h
          exact ⟨_, _, h⟩
      · split at h
        · split at h
          · cases h
          · obtain ⟨b', -, h⟩ := bind_eq_ok_iff.mp h
            exact ⟨_, _, h⟩
        · exact ⟨_, _, h⟩
    obtain ⟨a', b', h⟩ := hms
    obtain ⟨l, rfl⟩ := exists_eq_ofList_of_readPairMembers h
    exact ⟨(key, v) :: l, rfl⟩

theorem reads_new_iff {read : Value → Except Fault α} {P : Value → α → Prop}
    (h : ∀ v a, read v = .ok a ↔ P v a) {vs : List Value} {a : α} :
    Reads read none vs (some a) ↔ ∃ v, vs = [v] ∧ P v a := by
  constructor
  · intro hreads
    cases hreads with
    | one _ hread => exact ⟨_, rfl, (h _ _).mp hread⟩
  · rintro ⟨v, rfl, hv⟩
    exact .one rfl ((h v a).mpr hv)

theorem readPairItems_eq_ok_iff {expected : Expected} {items : Items} {a : α} {b : β} :
    readPairItems expected readFirst readSecond items = .ok (a, b) ↔
      ∃ v w, items = .ofList [v, w] ∧ readFirst v = .ok a ∧ readSecond w = .ok b := by
  constructor
  · intro h
    unfold readPairItems at h
    split at h
    · obtain ⟨a', ha, h⟩ := bind_eq_ok_iff.mp h
      split at h
      · obtain ⟨b', hb, h⟩ := bind_eq_ok_iff.mp h
        split at h
        · cases h
          exact ⟨_, _, rfl, ha, hb⟩
        · cases h
      · cases h
      · cases h
    · cases h
    · cases h
  · rintro ⟨v, w, rfl, ha, hb⟩
    rw [Items.ofList, Items.ofList, Items.ofList, readPairItems, ha, ok_bind]
    dsimp only
    rw [hb, ok_bind]
    rfl

/-- Two parameters are read exactly from what denotes them, with one level more. -/
theorem readPair_eq_ok_iff {of : Parametric} {readFirst : Nat → Value → Except Fault α}
    {readSecond : Nat → Value → Except Fault β} {P : Nat → Value → α → Prop}
    {Q : Nat → Value → β → Prop} (hne : first ≠ second)
    (hfirst : ∀ k v a, readFirst k v = .ok a ↔ P k v a)
    (hsecond : ∀ k v b, readSecond k v = .ok b ↔ Q k v b) {levels : Nat} {v : Value} {p : α × β} :
    readPair of first second readFirst readSecond levels v = .ok p ↔
      ∃ k, levels = k + 1 ∧ DenotesPair first second (P k) (Q k) v p := by
  obtain ⟨a, b⟩ := p
  constructor
  · intro h
    unfold readPair at h
    split at h
    · rename_i ms k
      obtain ⟨l, rfl⟩ := exists_eq_ofList_of_readPairMembers h
      rw [readPairMembers_ofList hne, reads_new_iff (hfirst k), reads_new_iff (hsecond k)] at h
      obtain ⟨⟨v, hv, ha⟩, w, hw, hb⟩ := h
      exact ⟨k, rfl, .object hv hw ha hb⟩
    · rename_i items k
      obtain ⟨v, w, rfl, ha, hb⟩ := readPairItems_eq_ok_iff.mp h
      exact ⟨k, rfl, .array ((hfirst k v a).mp ha) ((hsecond k w b).mp hb)⟩
    · cases h
    · cases h
    · cases h
  · rintro ⟨k, rfl, h⟩
    cases h with
    | object hv hw ha hb =>
      rw [readPair, readPairMembers_ofList hne, reads_new_iff (hfirst k),
        reads_new_iff (hsecond k)]
      exact ⟨⟨_, hv, ha⟩, _, hw, hb⟩
    | array ha hb =>
      rw [readPair, readPairItems_eq_ok_iff]
      exact ⟨_, _, rfl, (hfirst k _ a).mpr ha, (hsecond k _ b).mpr hb⟩

/-- What is made of two parameters is made of two that are denoted. -/
theorem readPair_bind_eq_ok_iff {of : Parametric} {readFirst : Nat → Value → Except Fault α}
    {readSecond : Nat → Value → Except Fault β} {P : Nat → Value → α → Prop}
    {Q : Nat → Value → β → Prop} (hne : first ≠ second)
    (hfirst : ∀ k v a, readFirst k v = .ok a ↔ P k v a)
    (hsecond : ∀ k v b, readSecond k v = .ok b ↔ Q k v b) {levels : Nat} {v : Value}
    {make : α → β → LogicalType} {l : LogicalType} :
    (readPair of first second readFirst readSecond levels v >>= fun p => .ok (make p.1 p.2)) =
        .ok l ↔
      ∃ k, levels = k + 1 ∧ ∃ a b, DenotesPair first second (P k) (Q k) v (a, b) ∧
        make a b = l := by
  rw [bind_eq_ok_iff]
  simp only [readPair_eq_ok_iff hne hfirst hsecond]
  constructor
  · rintro ⟨⟨a, b⟩, ⟨k, hk, h⟩, he⟩
    cases he
    exact ⟨k, hk, a, b, h, rfl⟩
  · rintro ⟨k, hk, a, b, h, rfl⟩
    exact ⟨(a, b), ⟨k, hk, h⟩, rfl⟩

/-! ## Logical types -/

/-- The name under which a logical type is listed. -/
def LogicalName.text : LogicalName → String
  | .plain l => l.name
  | .parametric p => p.name

/-- Whether what is listed as complete needs no parameters. -/
def LogicalName.isProper : LogicalName → Bool
  | .plain l => !hasParameters l
  | .parametric _ => true

theorem eq_text_of_mem_logicalNames :
    ∀ p ∈ logicalNames, p.1 = p.2.text ∧ p.2.isProper = true := by decide

/-- Every logical type is listed under its name, and nothing else is. -/
theorem lookUpLogical_eq_ok_iff {s : String} {x : LogicalName} :
    lookUpLogical s = .ok x ↔ s = x.text ∧ x.isProper = true := by
  rw [lookUpLogical, lookUp_eq_ok_iff]
  constructor
  · intro h
    obtain ⟨before, after, hnames, -⟩ := List.lookup_eq_some_iff.mp h
    refine eq_text_of_mem_logicalNames (s, x) ?_
    rw [hnames]
    exact List.mem_append_right before List.mem_cons_self
  · rintro ⟨rfl, hproper⟩
    cases x with
    | plain l =>
      cases l with
      | decimal | time | timestamp | integer => cases hproper
      | _ => rfl
    | parametric p =>
      cases p with
      | _ => rfl

theorem readParameters_eq_ok_iff {levels : Nat} {v : Value} {p : Parametric} {l : LogicalType} :
    readParameters levels v p = .ok l ↔ ∃ k, levels = k + 1 ∧ DenotesParameters k v p l := by
  have hint32 (_ : Nat) (v : Value) (n : Int32) := readInt32_eq_ok_iff (v := v) (n := n)
  have hint8 (_ : Nat) (v : Value) (n : Int8) := readInt8_eq_ok_iff (v := v) (n := n)
  have hbool (_ : Nat) (v : Value) (b : Bool) := readBool_eq_ok_iff (v := v) (b := b)
  have hunit (k : Nat) (v : Value) (u : TimeUnit) := @readUnit_eq_ok_iff k v u
  cases p with
  | decimal =>
    refine (readPair_bind_eq_ok_iff (by decide) hint32 hint32).trans ?_
    constructor
    · rintro ⟨k, hk, a, b, h, rfl⟩
      exact ⟨k, hk, .decimal h⟩
    · rintro ⟨k, hk, h⟩
      cases h with
      | decimal h => exact ⟨k, hk, _, _, h, rfl⟩
  | time =>
    refine (readPair_bind_eq_ok_iff (by decide) hbool hunit).trans ?_
    constructor
    · rintro ⟨k, hk, a, b, h, rfl⟩
      exact ⟨k, hk, .time h⟩
    · rintro ⟨k, hk, h⟩
      cases h with
      | time h => exact ⟨k, hk, _, _, h, rfl⟩
  | timestamp =>
    refine (readPair_bind_eq_ok_iff (by decide) hbool hunit).trans ?_
    constructor
    · rintro ⟨k, hk, a, b, h, rfl⟩
      exact ⟨k, hk, .timestamp h⟩
    · rintro ⟨k, hk, h⟩
      cases h with
      | timestamp h => exact ⟨k, hk, _, _, h, rfl⟩
  | integer =>
    refine (readPair_bind_eq_ok_iff (by decide) hint8 hbool).trans ?_
    constructor
    · rintro ⟨k, hk, a, b, h, rfl⟩
      exact ⟨k, hk, .integer h⟩
    · rintro ⟨k, hk, h⟩
      cases h with
      | integer h => exact ⟨k, hk, _, _, h, rfl⟩

/-- A logical type is read exactly from what denotes it. -/
theorem readLogical_eq_ok_iff {levels : Nat} {v : Value} {l : LogicalType} :
    readLogical levels v = .ok l ↔ DenotesLogical levels v l := by
  rw [readLogical, readVariant_eq_ok_iff]
  constructor
  · rintro (⟨s, rfl, h⟩ | ⟨k, s, w, rfl, rfl, h⟩)
    · obtain ⟨x, hx, hl⟩ := bind_eq_ok_iff.mp h
      obtain ⟨rfl, hproper⟩ := lookUpLogical_eq_ok_iff.mp hx
      cases x with
      | plain l' =>
        cases hl
        exact .plain (by simpa [LogicalName.isProper] using hproper) (.bare levels l)
      | parametric p => cases hl
    · obtain ⟨x, hx, hl⟩ := bind_eq_ok_iff.mp h
      obtain ⟨rfl, hproper⟩ := lookUpLogical_eq_ok_iff.mp hx
      cases x with
      | plain l' =>
        obtain ⟨u, hu, hl⟩ := bind_eq_ok_iff.mp hl
        cases hl
        rw [readNothing_eq_ok_iff.mp hu]
        exact .plain (by simpa [LogicalName.isProper] using hproper) (.applied k l)
      | parametric p =>
        obtain ⟨k, rfl, hparameters⟩ := readParameters_eq_ok_iff.mp hl
        exact .parametric hparameters
  · intro h
    cases h with
    | plain hplain hname =>
      have hlookUp : lookUpLogical l.name = .ok (.plain l) :=
        lookUpLogical_eq_ok_iff.mpr ⟨rfl, by simp [LogicalName.isProper, hplain]⟩
      cases hname with
      | bare =>
        refine Or.inl ⟨_, rfl, ?_⟩
        rw [hlookUp]
        rfl
      | applied k =>
        refine Or.inr ⟨k, _, _, rfl, rfl, ?_⟩
        rw [hlookUp]
        rfl
    | @parametric k w p _ h =>
      have hlookUp : lookUpLogical p.name = .ok (.parametric p) :=
        lookUpLogical_eq_ok_iff.mpr ⟨rfl, rfl⟩
      refine Or.inr ⟨k + 1, _, _, rfl, rfl, ?_⟩
      rw [hlookUp, ok_bind]
      exact readParameters_eq_ok_iff.mpr ⟨k, rfl, h⟩

end ParquetStruct.Raw
