/-
# ParquetStruct.Proofs.Raw.RoundTrip — trees come back from their raw form, up to the nesting limit.

The raw form of a tree is an object in which each field of the root occurs at most once, in a fixed
order.  Reading goes through the fields one by one; only a logical type with parameters and a list
of children open further containers, so only they can fail, and then the text counts as malformed.
How deep the containers go is `nesting`.
-/
import ParquetStruct.Proofs.Json.Document
import ParquetStruct.Proofs.Raw.Annotation
import ParquetStruct.Proofs.Raw.Writer
import ParquetStruct.Raw.Reader

namespace ParquetStruct.Raw

open ParquetStruct.Json

/-! ## Nesting -/

mutual

/-- How many containers of the raw form of a tree are open at its deepest place. -/
def nesting : Node → Nat
  | ⟨_, _, _, _, logicalType, _, children⟩ =>
    1 + max (logicalType.elim 0 logicalNesting) (childrenNesting children)

/-- How many containers of the raw form of a list of children are open at its deepest place; an
empty list is not written. -/
def childrenNesting : List Node → Nat
  | [] => 0
  | c :: cs => max (1 + nesting c) (childrenNesting cs)

end

theorem nesting_eq (n : Node) :
    nesting n = 1 + max (n.logicalType.elim 0 logicalNesting) (childrenNesting n.children) := by
  cases n
  rw [nesting]

theorem nesting_le_succ_iff {n : Node} {levels : Nat} : nesting n ≤ levels + 1 ↔
    n.logicalType.elim 0 logicalNesting ≤ levels ∧ childrenNesting n.children ≤ levels := by
  rw [nesting_eq]
  omega

theorem childrenNesting_cons_le_succ_iff {c : Node} {cs : List Node} {levels : Nat} :
    childrenNesting (c :: cs) ≤ levels + 1 ↔
      nesting c ≤ levels ∧ childrenNesting cs ≤ levels + 1 := by
  rw [childrenNesting]
  omega

/-! ## Fields -/

section

variable {readChildren : Value → Except Fault (List Node)} {levels : Nat} {f : Fields} {key : Key}
  {ms : List (String × Value)}

/-- A field that has not been read, and can be read under a condition, is read or else fails. -/
theorem readMembers_field (next : Fields) {p : Prop} [Decidable p] {value : Option Value}
    (hnew : f.has key = false)
    (hsome : ∀ v, value = some v →
      f.read readChildren levels v key = if p then .ok next else .error .malformed)
    (hnone : value = none → next = f ∧ p) :
    readMembers readChildren levels f (.ofList (field key value ++ ms)) =
      if p then readMembers readChildren levels next (.ofList ms) else .error .malformed := by
  cases value with
  | none =>
    obtain ⟨rfl, hp⟩ := hnone rfl
    rw [if_pos hp]
    rfl
  | some v =>
    have hstep : readMembers readChildren levels f (.ofList (field key (some v) ++ ms)) =
        f.read readChildren levels v key >>= fun f' =>
          readMembers readChildren levels f' (.ofList ms) := by
      show readMembers readChildren levels f (.member (some key.text) v (.ofList ms)) = _
      rw [readMembers, Key.ofText?_text]
      dsimp only
      rw [hnew, if_neg Bool.false_ne_true]
    rw [hstep, hsome v rfl, ite_bind]

/-- An optional field that has not been read, and can be read wherever it stands, is read; `set`
puts a value into the fields read so far. -/
theorem readMembers_optional {α : Type} {write : α → Value} (set : Option (Option α) → Fields)
    (hnew : (set none).has key = false)
    (hread : ∀ a, (set none).read readChildren levels (write a) key = .ok (set (some (some a))))
    (value : Option α) :
    readMembers readChildren levels (set none) (.ofList (field key (value.map write) ++ ms)) =
      readMembers readChildren levels (set (value.map some)) (.ofList ms) := by
  rw [readMembers_field (set (value.map some)) (p := True) hnew, if_pos trivial]
  · intro v hv
    obtain ⟨a, rfl, rfl⟩ := Option.map_eq_some_iff.mp hv
    rw [hread, if_pos trivial]
    rfl
  · intro hv
    rw [Option.map_eq_none_iff.mp hv]
    exact ⟨rfl, trivial⟩

end

/-! ## Nodes -/

theorem readLogical_option (levels : Nat) (l : LogicalType) :
    readOption (readLogical levels) (ofLogical l) =
      if logicalNesting l ≤ levels then .ok (some l) else .error .malformed := by
  rw [readOption_of_ne_null _ (ofLogical_ne_null l), readLogical_ofLogical]
  exact apply_ite (Except.map some) _ _ _

/-- What is read of a node before its logical type. -/
def leadingFields (n : Node) : Fields where
  name := some n.name
  physicalCode := n.physicalCode.map some
  typeLength := n.typeLength.map some
  convertedType := n.convertedType.map some

theorem readMembers_leading (n : Node) (readChildren : Value → Except Fault (List Node))
    (levels : Nat) (ms : List (String × Value)) :
    readMembers readChildren levels {} (.ofList (field .name (some (ofString n.name)) ++
        (field .physicalType (n.physicalCode.map fun c => ofInt c.toInt) ++
        (field .typeLength (n.typeLength.map fun l => ofInt l.toInt) ++
        (field .convertedType (n.convertedType.map fun c => ofString c.name) ++ ms))))) =
      readMembers readChildren levels (leadingFields n) (.ofList ms) := by
  have hname (rest : List (String × Value)) : readMembers readChildren levels {}
      (.ofList (field .name (some (ofString n.name)) ++ rest)) =
        readMembers readChildren levels { name := some n.name } (.ofList rest) := rfl
  rw [hname,
    readMembers_optional (fun x => { name := some n.name, physicalCode := x }) rfl
      fun c => by
        rw [Fields.read, readOption_of_ok (ofInt_ne_null _) (readInt32_ofInt _)]
        rfl,
    readMembers_optional (fun x => {
        name := some n.name
        physicalCode := n.physicalCode.map some
        typeLength := x }) rfl
      fun l => by
        rw [Fields.read, readOption_of_ok (ofInt_ne_null _) (readInt32_ofInt _)]
        rfl,
    readMembers_optional (fun x => {
        name := some n.name
        physicalCode := n.physicalCode.map some
        typeLength := n.typeLength.map some
        convertedType := x }) rfl
      fun c => by
        rw [Fields.read, readOption_of_ok (ofString_ne_null _) (readConverted_ofString _ _)]
        rfl]
  rfl

/-- What is read of a node before its children. -/
def fieldsOf (n : Node) : Fields :=
  { leadingFields n with
    logicalType := n.logicalType.map some
    repetitionType := n.repetitionType.map some }

theorem readMembers_trailing (n : Node) (readChildren : Value → Except Fault (List Node))
    (levels : Nat) (ms : List (String × Value)) :
    readMembers readChildren levels (leadingFields n) (.ofList
        (field .logicalType (n.logicalType.map ofLogical) ++
        (field .repetitionType (n.repetitionType.map fun r => ofString r.name) ++ ms))) =
      if n.logicalType.elim 0 logicalNesting ≤ levels then
        readMembers readChildren levels (fieldsOf n) (.ofList ms)
      else .error .malformed := by
  -- The logical type is the one field here that needs room.
  have hrepetition : readMembers readChildren levels
      { leadingFields n with logicalType := n.logicalType.map some }
      (.ofList (field .repetitionType (n.repetitionType.map fun r => ofString r.name) ++ ms)) =
        readMembers readChildren levels (fieldsOf n) (.ofList ms) :=
    readMembers_optional (fun x => { leadingFields n with
        logicalType := n.logicalType.map some
        repetitionType := x }) rfl
      (fun r => by
        rw [Fields.read, readOption_of_ok (ofString_ne_null _) (readRepetition_ofString _ _)]
        rfl)
      n.repetitionType
  rw [readMembers_field { leadingFields n with logicalType := n.logicalType.map some }
    (p := n.logicalType.elim 0 logicalNesting ≤ levels) rfl, hrepetition]
  · intro v hv
    obtain ⟨l, hl, rfl⟩ := Option.map_eq_some_iff.mp hv
    rw [Fields.read, readLogical_option, hl, Option.elim_some, ite_bind]
    rfl
  · intro hv
    rw [Option.map_eq_none_iff.mp hv]
    exact ⟨rfl, Nat.zero_le levels⟩

theorem toNode?_fieldsOf (n : Node) :
    { fieldsOf n with children := if n.children.isEmpty then none else some n.children }.toNode? =
      some n := by
  have hgetD {α : Type} (o : Option α) : (o.map some).getD none = o := by cases o <;> rfl
  have hchildren : (if n.children.isEmpty then none else some n.children).getD [] = n.children := by
    cases n.children <;> rfl
  unfold Fields.toNode? fieldsOf leadingFields
  rw [Option.map_some, hchildren]
  dsimp only
  rw [hgetD, hgetD, hgetD, hgetD, hgetD]
  cases n
  rfl

/-- A node is read if there is room for its logical type and for its children. -/
theorem readNode_ofNode_succ (n : Node) (levels : Nat)
    (hchildren : n.children ≠ [] → readNodes levels (.array (ofNodes n.children)) =
      if childrenNesting n.children ≤ levels then .ok n.children else .error .malformed) :
    readNode (levels + 1) (ofNode n) =
      if n.logicalType.elim 0 logicalNesting ≤ levels then
        if childrenNesting n.children ≤ levels then .ok n else .error .malformed
      else .error .malformed := by
  rw [ofNode_eq]
  show readMembers (readNodes levels) levels {} _ = _
  rw [readMembers_leading, readMembers_trailing, readMembers_field
    { fieldsOf n with children := if n.children.isEmpty then none else some n.children }
    (p := childrenNesting n.children ≤ levels) rfl]
  · rw [show Members.ofList [] = .close from rfl, readMembers, toNode?_fieldsOf]
  · intro v hv
    cases hcs : n.children with
    | nil =>
      rw [hcs] at hv
      cases hv
    | cons c cs =>
      rw [hcs] at hv
      cases hv
      have hne : n.children ≠ [] := by
        rw [hcs]
        exact List.cons_ne_nil c cs
      rw [Fields.read, ← hcs, hchildren hne, ite_bind, hcs]
      rfl
  · intro hv
    cases hcs : n.children with
    | nil => exact ⟨rfl, Nat.zero_le levels⟩
    | cons c cs =>
      rw [hcs] at hv
      cases hv

/-! ## Trees -/

theorem readAll_ofNodes {cs : List Node} {levels : Nat}
    (h : ∀ c ∈ cs, readNode levels (ofNode c) =
      if nesting c ≤ levels then .ok c else .error .malformed) :
    readAll (readNode levels) (ofNodes cs) =
      if childrenNesting cs ≤ levels + 1 then .ok cs else .error .malformed := by
  induction cs with
  | nil => rfl
  | cons c cs ih =>
    rw [ofNodes, readAll, h c List.mem_cons_self, ih fun d hd => h d (List.mem_cons_of_mem c hd),
      if_congr childrenNesting_cons_le_succ_iff rfl rfl, ite_and, ite_bind, ite_bind]
    rfl

theorem readNodes_ofNodes {cs : List Node} (h : ∀ c ∈ cs, ∀ levels, readNode levels (ofNode c) =
      if nesting c ≤ levels then .ok c else .error .malformed) (hne : cs ≠ []) (levels : Nat) :
    readNodes levels (.array (ofNodes cs)) =
      if childrenNesting cs ≤ levels then .ok cs else .error .malformed := by
  cases levels with
  | zero =>
    -- There is no room for the array itself, and a child takes up at least one level more.
    obtain ⟨c, cs', rfl⟩ := List.exists_cons_of_ne_nil hne
    rw [childrenNesting, if_neg (by omega)]
    rfl
  | succ levels => exact readAll_ofNodes fun c hc => h c hc levels

/-- A tree comes back from its raw form exactly if there is room for its nesting. -/
theorem readNode_ofNode (n : Node) : ∀ levels, readNode levels (ofNode n) =
    if nesting n ≤ levels then .ok n else .error .malformed := by
  induction n using Node.induction with
  | step n ih =>
    intro levels
    cases levels with
    | zero =>
      rw [nesting_eq, if_neg (by omega), ofNode_eq]
      rfl
    | succ levels =>
      -- Opening the object takes one level; its logical type and its children share the others.
      rw [readNode_ofNode_succ n levels fun hne => readNodes_ofNodes ih hne levels, ← ite_and]
      exact if_congr nesting_le_succ_iff.symm rfl rfl

theorem readDocument_ofNode (n : Node) : readDocument ⟨ofNode n, true⟩ =
    if nesting n ≤ 127 then .ok n else .error .malformed := by
  rw [readDocument, readNode_ofNode, ite_bind]
  rfl

/-- Reading undoes writing, on one line or with a line for every field, for the trees of at most 127
levels of nesting; the raw forms of all others count as malformed. -/
theorem read_compact_pretty (n : Node) :
    read (compact n) = (if nesting n ≤ 127 then .ok n else .error .malformed) ∧
      read (pretty n) = (if nesting n ≤ 127 then .ok n else .error .malformed) := by
  obtain ⟨hcompact, hpretty⟩ := ofChars_tokens (isPlainValue_ofNode n) 0
  unfold read compact pretty tokens
  rw [String.toList_ofList, String.toList_ofList, hcompact, hpretty, readDocument_ofNode]
  exact ⟨rfl, rfl⟩

end ParquetStruct.Raw
