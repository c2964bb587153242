/-
# ParquetStruct.Proofs.Raw.Recognition — the texts that are read as a tree.

The members of a node are read one after the other into its fields; what matters of them in the end
is, for each field, the values that stand under its key.  A node given as an array is read like one
whose members stand in order.  Nodes and lists of children are then followed down, one level of
nesting at a time, and a text is read exactly if it spells a value that denotes a tree.
-/
import ParquetStruct.Proofs.Json.Document
import ParquetStruct.Proofs.Raw.Annotation
import ParquetStruct.Proofs.Raw.Grammar

namespace ParquetStruct.Raw

open ParquetStruct.Json

/-! ## Fields by their keys -/

/-- What is read under a key. -/
def Slot : Key → Type
  | .name => String
  | .physicalType => Option Int32
  | .typeLength => Option Int32
  | .convertedType => Option ConvertedType
  | .logicalType => Option LogicalType
  | .repetitionType => Option Repetition
  | .children => List Node

/-- What was read under a key, if anything was. -/
def Fields.get (f : Fields) : (k : Key) → Option (Slot k)
  | .name => f.name
  | .physicalType => f.physicalCode
  | .typeLength => f.typeLength
  | .convertedType => f.convertedType
  | .logicalType => f.logicalType
  | .repetitionType => f.repetitionType
  | .children => f.children

/-- The fields with something read under a key. -/
def Fields.set (f : Fields) : (k : Key) → Slot k → Fields
  | .name, x => { f with name := some x }
  | .physicalType, x => { f with physicalCode := some x }
  | .typeLength, x => { f with typeLength := some x }
  | .convertedType, x => { f with convertedType := some x }
  | .logicalType, x => { f with logicalType := some x }
  | .repetitionType, x => { f with repetitionType := some x }
  | .children, x => { f with children := some x }

/-- Reads the value under a key. -/
def readSlot (readChildren : Value → Except Fault (List Node)) (levels : Nat) :
    (k : Key) → Value → Except Fault (Slot k)
  | .name => readString
  | .physicalType => readOption readInt32
  | .typeLength => readOption readInt32
  | .convertedType => readOption (readConverted levels)
  | .logicalType => readOption (readLogical levels)
  | .repetitionType => readOption (readRepetition levels)
  | .children => readChildren

theorem Fields.ext_get {f g : Fields} (h : ∀ k, f.get k = g.get k) : f = g := by
  obtain ⟨name, physicalCode, typeLength, convertedType, logicalType, repetitionType, children⟩ := f
  rw [show name = g.name from h .name, show physicalCode = g.physicalCode from h .physicalType,
    show typeLength = g.typeLength from h .typeLength,
    show convertedType = g.convertedType from h .convertedType,
    show logicalType = g.logicalType from h .logicalType,
    show repetitionType = g.repetitionType from h .repetitionType,
    show children = g.children from h .children]

@[simp] theorem Fields.get_set_self (f : Fields) (k : Key) (x : Slot k) :
    (f.set k x).get k = some x := by
  cases k with
  | _ => rfl

theorem Fields.get_set_of_ne (f : Fields) {k k' : Key} (h : k' ≠ k) (x : Slot k) :
    (f.set k x).get k' = f.get k' := by
  cases k with
  | _ =>
    cases k' with
    | _ => first | rfl | exact absurd rfl h

theorem Fields.has_eq_false_iff {f : Fields} {k : Key} : f.has k = false ↔ f.get k = none := by
  cases k with
  | _ => exact Option.isSome_eq_false_iff.trans Option.isNone_iff_eq_none

variable {readChildren : Value → Except Fault (List Node)} {levels : Nat}

theorem Fields.read_eq_ok_iff {f f' : Fields} {v : Value} {k : Key} :
    f.read readChildren levels v k = .ok f' ↔
      ∃ x, readSlot readChildren levels k v = .ok x ∧ f' = f.set k x := by
  have hread : f.read readChildren levels v k =
      readSlot readChildren levels k v >>= fun x => .ok (f.set k x) := by
    cases k with
    | _ => rfl
  rw [hread, bind_eq_ok_iff]
  simp only [Except.ok.injEq, eq_comm]

/-! ## Members of a node -/

/-- What was read of a node before some members, and what has been read after them. -/
def FieldsRead (readChildren : Value → Except Fault (List Node)) (levels : Nat) (f : Fields)
    (ms : List (String × Value)) (f' : Fields) : Prop :=
  ∀ k : Key, Reads (readSlot readChildren levels k) (f.get k) (valuesAt k.text ms) (f'.get k)

variable {f f' : Fields} {ms : List (String × Value)}

theorem fieldsRead_nil_iff : FieldsRead readChildren levels f [] f' ↔ f' = f := by
  constructor
  · intro h
    exact Fields.ext_get fun k => reads_nil_iff.mp (h k)
  · rintro rfl k
    exact .none

theorem fieldsRead_cons_of_unknown {key : String} (h : Key.ofText? key = none) (v : Value) :
    FieldsRead readChildren levels f ((key, v) :: ms) f' ↔
      FieldsRead readChildren levels f ms f' := by
  have hvalues (k : Key) : valuesAt k.text ((key, v) :: ms) = valuesAt k.text ms := by
    refine valuesAt_cons_of_ne ?_ v ms
    rintro rfl
    rw [Key.ofText?_text] at h
    cases h
  simp only [FieldsRead, hvalues]

theorem text_injective {k k' : Key} (h : k.text = k'.text) : k = k' := by
  have h := congrArg Key.ofText? h
  rwa [Key.ofText?_text, Key.ofText?_text, Option.some.injEq] at h

/-- A member under a known key is read if nothing was read under this key before. -/
theorem fieldsRead_cons_of_key {key : Key} {v : Value} :
    FieldsRead readChildren levels f ((key.text, v) :: ms) f' ↔ f.has key = false ∧
      ∃ f₁, f.read readChildren levels v key = .ok f₁ ∧
        FieldsRead readChildren levels f₁ ms f' := by
  have hvalues {k : Key} (hk : k ≠ key) :
      valuesAt k.text ((key.text, v) :: ms) = valuesAt k.text ms :=
    valuesAt_cons_of_ne (fun h => hk (text_injective h).symm) v ms
  constructor
  · intro h
    have hkey := h key
    rw [valuesAt_cons_self, reads_cons_iff] at hkey
    obtain ⟨hnew, x, hx, hrest⟩ := hkey
    refine ⟨Fields.has_eq_false_iff.mpr hnew, f.set key x,
      Fields.read_eq_ok_iff.mpr ⟨x, hx, rfl⟩, fun k => ?_⟩
    by_cases hk : k = key
    · subst hk
      rw [Fields.get_set_self]
      exact hrest
    · rw [Fields.get_set_of_ne f hk, ← hvalues hk]
      exact h k
  · rintro ⟨hnew, f₁, hread, h⟩ k
    obtain ⟨x, hx, rfl⟩ := Fields.read_eq_ok_iff.mp hread
    have hk := h k
    by_cases hkey : k = key
    · subst hkey
      rw [Fields.get_set_self] at hk
      rw [valuesAt_cons_self, reads_cons_iff]
      exact ⟨Fields.has_eq_false_iff.mp hnew, x, hx, hk⟩
    · rw [Fields.get_set_of_ne f hkey] at hk
      rw [hvalues hkey]
      exact hk

/-- Members are read into a node if their values can be read, and those under one key are no more
than one. -/
theorem readMembers_ofList {n : Node} :
    readMembers readChildren levels f (.ofList ms) = .ok n ↔
      ∃ f', FieldsRead readChildren levels f ms f' ∧ f'.toNode? = some n := by
  induction ms generalizing f with
  | nil =>
    simp only [fieldsRead_nil_iff, exists_eq_left]
    rw [Members.ofList, readMembers]
    cases f.toNode? with
    | none => simp
    | some m => simp
  | cons m ms ih =>
    obtain ⟨text, v⟩ := m
    rw [Members.ofList, readMembers]
    cases hkey : Key.ofText? text with
    | none =>
      simp only [fieldsRead_cons_of_unknown hkey]
      exact ih
    | some key =>
      have htext : text = key.text := name_eq_of_find? hkey
      subst htext
      dsimp only
      simp only [fieldsRead_cons_of_key]
      cases hhas : f.has key with
      | true => simp
      | false =>
        rw [if_neg Bool.false_ne_true, bind_eq_ok_iff]
        simp only [ih]
        constructor
        · rintro ⟨f₁, hread, f', hfields, hn⟩
          exact ⟨f', ⟨trivial, f₁, hread, hfields⟩, hn⟩
        · rintro ⟨f', ⟨-, f₁, hread, hfields⟩, hn⟩
          exact ⟨f₁, hread, f', hfields, hn⟩

/-- Members that can be read are whole and have keys with text. -/
theorem exists_eq_ofList_of_readMembers : ∀ {members : Members} {f : Fields} {n : Node},
    readMembers readChildren levels f members = .ok n → ∃ ms, members = .ofList ms
  | .close, _, _, _ => ⟨[], rfl⟩
  | .cut, _, _, h => by cases h
  | .member none _ _, _, _, h => by cases h
  | .member (some text) v members, f, n, h => by
    have hrest : ∃ f', readMembers readChildren levels f' members = .ok n := by
      rw [readMembers] at h
      split at h
      · exact ⟨f, h⟩
      · split at h
        · cases h
        · obtain ⟨f', -, h⟩ := bind_eq_ok_iff.mp h
          exact ⟨f', h⟩
    obtain ⟨f', h⟩ := hrest
    obtain ⟨ms, rfl⟩ := exists_eq_ofList_of_readMembers h
    exact ⟨(text, v) :: ms, rfl⟩

/-! ## Items of a node -/

/-- Items for keys that nothing was read under are read like members under these keys. -/
theorem readItems_ofList {keys : List Key} {vs : List Value} {n : Node} (hkeys : keys.Nodup)
    (hnew : ∀ k ∈ keys, f.has k = false) :
    readItems readChildren levels f keys (.ofList vs) = .ok n ↔ vs.length ≤ keys.length ∧
      readMembers readChildren levels f (.ofList ((keys.map Key.text).zip vs)) = .ok n := by
  induction vs generalizing f keys with
  | nil =>
    rw [List.zip_nil_right, Items.ofList, Members.ofList, readItems, readMembers]
    cases f.toNode? with
    | none => simp
    | some m => simp
  | cons v vs ih =>
    cases keys with
    | nil => simp [Items.ofList, readItems]
    | cons key keys =>
      rw [List.nodup_cons] at hkeys
      rw [List.forall_mem_cons] at hnew
      have hmembers : readMembers readChildren levels f
          (.ofList (((key :: keys).map Key.text).zip (v :: vs))) =
            f.read readChildren levels v key >>= fun f₁ =>
              readMembers readChildren levels f₁ (.ofList ((keys.map Key.text).zip vs)) := by
        rw [List.map_cons, List.zip_cons_cons, Members.ofList, readMembers, Key.ofText?_text]
        dsimp only
        rw [hnew.1, if_neg Bool.false_ne_true]
      rw [hmembers, Items.ofList, readItems, bind_eq_ok_iff, bind_eq_ok_iff, List.length_cons,
        List.length_cons, Nat.add_le_add_iff_right, ← exists_and_left]
      refine exists_congr fun f₁ => ?_
      -- Reading under one key leaves the keys that are still due as they were.
      have hstep (hread : f.read readChildren levels v key = .ok f₁) :=
        ih hkeys.2 (f := f₁) fun k hk => by
          obtain ⟨x, -, rfl⟩ := Fields.read_eq_ok_iff.mp hread
          have hne : k ≠ key := fun h => hkeys.1 (h ▸ hk)
          rw [Fields.has_eq_false_iff, Fields.get_set_of_ne f hne, ← Fields.has_eq_false_iff]
          exact hnew.2 k hk
      constructor
      · rintro ⟨hread, h⟩
        obtain ⟨hlength, h⟩ := (hstep hread).mp h
        exact ⟨hlength, hread, h⟩
      · rintro ⟨hlength, hread, h⟩
        exact ⟨hread, (hstep hread).mpr ⟨hlength, h⟩⟩

/-- Items that can be read are whole. -/
theorem exists_eq_ofList_of_readItems : ∀ {items : Items} {f : Fields} {keys : List Key} {n : Node},
    readItems readChildren levels f keys items = .ok n → ∃ vs, items = .ofList vs
  | .close, _, _, _, _ => ⟨[], rfl⟩
  | .cut, _, keys, _, h => by
    cases keys with
    | nil => cases h
    | cons _ _ => cases h
  | .item v items, f, [], n, h => by cases h
  | .item v items, f, key :: keys, n, h => by
    obtain ⟨f', -, h⟩ := bind_eq_ok_iff.mp h
    obtain ⟨vs, rfl⟩ := exists_eq_ofList_of_readItems h
    exact ⟨v :: vs, rfl⟩

/-! ## Nodes -/

/-- A node is read from a record whose members can be read. -/
theorem readNode_succ_eq_ok_iff {v : Value} {n : Node} :
    readNode (levels + 1) v = .ok n ↔
      ∃ ms, IsRecord v ms ∧ readMembers (readNodes levels) levels {} (.ofList ms) = .ok n := by
  have hkeys : Key.all.Nodup := by decide
  have hnew : ∀ k ∈ Key.all, ({} : Fields).has k = false := by decide
  constructor
  · intro h
    cases v with
    | object members =>
      obtain ⟨ms, rfl⟩ := exists_eq_ofList_of_readMembers h
      exact ⟨ms, .object ms, h⟩
    | array items =>
      obtain ⟨vs, rfl⟩ := exists_eq_ofList_of_readItems h
      obtain ⟨hlength, hms⟩ := (readItems_ofList hkeys hnew).mp h
      exact ⟨_, .array hlength, hms⟩
    | _ => cases h
  · rintro ⟨ms, hrecord, h⟩
    cases hrecord with
    | object => exact h
    | array hlength => exact (readItems_ofList hkeys hnew).mpr ⟨hlength, h⟩

theorem Fields.toNode?_eq_some_iff {n : Node} :
    f.toNode? = some n ↔ f.name = some n.name ∧ f.physicalCode.getD none = n.physicalCode ∧
      f.typeLength.getD none = n.typeLength ∧ f.convertedType.getD none = n.convertedType ∧
      f.logicalType.getD none = n.logicalType ∧ f.repetitionType.getD none = n.repetitionType ∧
      f.children.getD [] = n.children := by
  rw [toNode?, Option.map_eq_some_iff]
  constructor
  · rintro ⟨name, hname, rfl⟩
    exact ⟨hname, rfl, rfl, rfl, rfl, rfl, rfl⟩
  · rintro ⟨hname, h₁, h₂, h₃, h₄, h₅, h₆⟩
    rw [h₁, h₂, h₃, h₄, h₅, h₆]
    obtain ⟨name, _⟩ := n
    exact ⟨name, hname, rfl⟩

theorem exists_reads_option_iff {α : Type} {read : Value → Except Fault α} {P : Value → α → Prop}
    (h : ∀ v a, read v = .ok a ↔ P v a) (hnull : ∀ a, ¬P .null a) {vs : List Value}
    {o : Option α} :
    (∃ x, Reads (readOption read) none vs x ∧ x.getD none = o) ↔ DenotesOption P vs o := by
  constructor
  · rintro ⟨x, hreads, rfl⟩
    cases hreads with
    | none => exact .absent
    | @one v b _ hread =>
      by_cases hv : v = .null
      · subst hv
        cases hread
        exact .null
      · rw [readOption_of_ne_null read hv] at hread
        obtain ⟨a, ha, rfl⟩ := map_eq_ok_iff.mp hread
        exact .given ((h v a).mp ha)
  · intro hoption
    cases hoption with
    | absent => exact ⟨none, .none, rfl⟩
    | null => exact ⟨some none, .one rfl rfl, rfl⟩
    | @given v a ha =>
      have hv : v ≠ .null := by
        rintro rfl
        exact hnull a ha
      exact ⟨some (some a), .one rfl (readOption_of_ok hv ((h v a).mpr ha)), rfl⟩

theorem DenotesName.ne_null {α : Type} {name : α → String} {a : α} :
    ¬DenotesName name levels .null a := nofun

theorem DenotesInt32.ne_null {i : Int32} : ¬DenotesInt32 .null i := nofun

theorem DenotesLogical.ne_null {l : LogicalType} : ¬DenotesLogical levels .null l := by
  intro h
  cases h with
  | plain _ h => cases h

/-- What can be read of the members of a node is what they denote; its children are left open. -/
theorem exists_fieldsRead_iff {n : Node} :
    (∃ f', FieldsRead readChildren levels {} ms f' ∧ f'.toNode? = some n) ↔
      DenotesFields levels ms n ∧
        ∃ x, Reads readChildren none (valuesAt "children" ms) x ∧ x.getD [] = n.children := by
  have hname (vs : List Value) (s : String) :
      Reads readString none vs (some s) ↔ ∃ v, vs = [v] ∧ v = .string (some s) :=
    reads_new_iff fun _ _ => readString_eq_ok_iff
  have hint (vs : List Value) (o : Option Int32) :
      (∃ x, Reads (readOption readInt32) none vs x ∧ x.getD none = o) ↔
        DenotesOption DenotesInt32 vs o :=
    exists_reads_option_iff (fun v _ => readInt32_eq_ok_iff (v := v))
      fun _ => DenotesInt32.ne_null
  have hconverted (vs : List Value) (o : Option ConvertedType) :
      (∃ x, Reads (readOption (readConverted levels)) none vs x ∧ x.getD none = o) ↔
        DenotesOption (DenotesName ConvertedType.name levels) vs o :=
    exists_reads_option_iff (fun v _ => readConverted_eq_ok_iff (v := v))
      fun _ => DenotesName.ne_null
  have hlogical (vs : List Value) (o : Option LogicalType) :
      (∃ x, Reads (readOption (readLogical levels)) none vs x ∧ x.getD none = o) ↔
        DenotesOption (DenotesLogical levels) vs o :=
    exists_reads_option_iff (fun v _ => readLogical_eq_ok_iff (v := v))
      fun _ => DenotesLogical.ne_null
  have hrepetition (vs : List Value) (o : Option Repetition) :
      (∃ x, Reads (readOption (readRepetition levels)) none vs x ∧ x.getD none = o) ↔
        DenotesOption (DenotesName Repetition.name levels) vs o :=
    exists_reads_option_iff (fun v _ => readRepetition_eq_ok_iff (v := v))
      fun _ => DenotesName.ne_null
  constructor
  · rintro ⟨f, hread, hn⟩
    obtain ⟨h₁, h₂, h₃, h₄, h₅, h₆, h₇⟩ := Fields.toNode?_eq_some_iff.mp hn
    refine ⟨⟨?_, ?_, ?_, ?_, ?_, ?_⟩, f.children, hread .children, h₇⟩
    · have hvalue := hread .name
      rw [show f.get .name = some n.name from h₁] at hvalue
      obtain ⟨v, hvs, rfl⟩ := (hname _ _).mp hvalue
      exact hvs
    · exact (hint _ _).mp ⟨f.physicalCode, hread .physicalType, h₂⟩
    · exact (hint _ _).mp ⟨f.typeLength, hread .typeLength, h₃⟩
    · exact (hconverted _ _).mp ⟨f.convertedType, hread .convertedType, h₄⟩
    · exact (hlogical _ _).mp ⟨f.logicalType, hread .logicalType, h₅⟩
    · exact (hrepetition _ _).mp ⟨f.repetitionType, hread .repetitionType, h₆⟩
  · rintro ⟨h, children, hchildren, hcs⟩
    obtain ⟨physicalCode, hphysical, hcode⟩ := (hint _ _).mpr h.physicalCode
    obtain ⟨typeLength, htype, hlength⟩ := (hint _ _).mpr h.typeLength
    obtain ⟨convertedType, hconverted, hc⟩ := (hconverted _ _).mpr h.convertedType
    obtain ⟨logicalType, hlogical, hl⟩ := (hlogical _ _).mpr h.logicalType
    obtain ⟨repetitionType, hrepetition, hr⟩ := (hrepetition _ _).mpr h.repetitionType
    refine ⟨⟨some n.name, physicalCode, typeLength, convertedType, logicalType, repetitionType,
      children⟩, fun k => ?_, Fields.toNode?_eq_some_iff.mpr ⟨rfl, hcode, hlength, hc, hl, hr, hcs⟩⟩
    cases k with
    | name => exact (hname _ _).mpr ⟨_, h.name, rfl⟩
    | physicalType => exact hphysical
    | typeLength => exact htype
    | convertedType => exact hconverted
    | logicalType => exact hlogical
    | repetitionType => exact hrepetition
    | children => exact hchildren

/-! ## Trees -/

theorem exists_reads_children_iff {vs : List Value} {cs : List Node}
    (h : ∀ v cs, readNodes levels v = .ok cs ↔ DenotesChildren levels [v] cs) :
    (∃ x, Reads (readNodes levels) none vs x ∧ x.getD [] = cs) ↔
      DenotesChildren levels vs cs := by
  constructor
  · rintro ⟨x, hreads, rfl⟩
    cases hreads with
    | none => exact .absent levels
    | one _ hread => exact (h _ _).mp hread
  · intro hchildren
    cases hchildren with
    | absent => exact ⟨none, .none, rfl⟩
    | @array _ items _ hitems =>
      exact ⟨some cs, .one rfl ((h (.array items) cs).mpr (.array hitems)), rfl⟩

theorem readAll_eq_ok_iff (h : ∀ v n, readNode levels v = .ok n ↔ DenotesNode levels v n) :
    ∀ (items : Items) (cs : List Node),
      readAll (readNode levels) items = .ok cs ↔ DenotesItems levels items cs
  | .close, cs => by
    constructor
    · intro hread
      cases hread
      exact .nil levels
    · intro hitems
      cases hitems
      rfl
  | .cut, cs => ⟨nofun, nofun⟩
  | .item v items, cs => by
    rw [readAll, bind_eq_ok_iff]
    constructor
    · rintro ⟨c, hc, hrest⟩
      obtain ⟨cs', hcs', he⟩ := bind_eq_ok_iff.mp hrest
      cases he
      exact .cons ((h v c).mp hc) ((readAll_eq_ok_iff h items cs').mp hcs')
    · intro hitems
      cases hitems with
      | cons hv hitems =>
        refine ⟨_, (h _ _).mpr hv, ?_⟩
        rw [(readAll_eq_ok_iff h items _).mpr hitems]
        rfl

/-- Nodes and children are read exactly from what denotes them, whatever the levels that are
left. -/
theorem readNode_and_readNodes_eq_ok_iff (levels : Nat) :
    (∀ v n, readNode levels v = .ok n ↔ DenotesNode levels v n) ∧
      ∀ v cs, readNodes levels v = .ok cs ↔ DenotesChildren levels [v] cs := by
  induction levels with
  | zero =>
    -- No container is left to open, so nothing is read, and nothing denotes a node.
    constructor
    · intro v n
      cases v <;> exact ⟨nofun, nofun⟩
    · intro v cs
      cases v <;> exact ⟨nofun, nofun⟩
  | succ levels ih =>
    obtain ⟨hnode, hnodes⟩ := ih
    constructor
    · intro v n
      rw [readNode_succ_eq_ok_iff]
      simp only [readMembers_ofList, exists_fieldsRead_iff, exists_reads_children_iff hnodes]
      constructor
      · rintro ⟨ms, hrecord, hfields, hchildren⟩
        exact .mk hrecord hfields hchildren
      · intro h
        cases h with
        | mk hrecord hfields hchildren => exact ⟨_, hrecord, hfields, hchildren⟩
    · intro v cs
      cases v with
      | array items =>
        rw [show readNodes (levels + 1) (.array items) = readAll (readNode levels) items from rfl,
          readAll_eq_ok_iff hnode]
        constructor
        · exact .array
        · intro h
          cases h with
          | array hitems => exact hitems
      | _ => exact ⟨nofun, nofun⟩

/-- A text is read as a tree exactly if it spells a value that denotes the tree, with space between
the tokens and nothing after them, and at most 127 containers that belong to the tree are open at
any place. -/
theorem read_eq_ok_iff_denotes (text : String) (n : Node) :
    read text = .ok n ↔
      ∃ v, SpellsTokens v.tokens text.toList ∧ DenotesNode nestingLimit v n := by
  have hnode := (readNode_and_readNodes_eq_ok_iff nestingLimit).1
  rw [read, readDocument, bind_eq_ok_iff]
  constructor
  · rintro ⟨n', hread, hended⟩
    split at hended
    · rename_i htrue
      cases hended
      refine ⟨_, ofChars_eq_iff.mp ?_, (hnode _ _).mp hread⟩
      rw [← htrue]
    · cases hended
  · rintro ⟨v, hspelled, hdenotes⟩
    refine ⟨n, ?_, ?_⟩
    · rw [ofChars_eq_iff.mpr hspelled]
      exact (hnode v n).mpr hdenotes
    · rw [ofChars_eq_iff.mpr hspelled]
      rfl

end ParquetStruct.Raw
