/-
# ParquetStruct.Proofs.Struct.Column — what a node that takes one line contributes to its field.

There are three kinds of columns, for scalars, lists and maps; each is a record made from nodes that
are scalars.  The entries of its tag are spelled out here, in order, and all their keys are plain
words, so the tag of a field can be read back from its text.
-/
import ParquetStruct.Proofs.Struct.Tag
import ParquetStruct.Proofs.Struct.Walk

namespace ParquetStruct.Struct

variable {n : Node} {path : FieldPath}

/-! ## The three kinds of columns -/

/-- The column of a list whose element has the given physical type. -/
def listOf (element : Node) (twoLevel : Bool) (t : PhysicalType) : Column where
  type := .list (if twoLevel then .required else element.repetition) (scalarType element t false)
  own := Tag.push {} "type" ConvertedType.list.name
  members := memberEntries "value" element t

/-- The column of a map whose key and value have the given physical types. -/
def mapOf (key value : Node) (keyType valueType : PhysicalType) : Column where
  type := .map (scalarType key keyType true) value.repetition (scalarType value valueType false)
  own := Tag.push {} "type" ConvertedType.map.name
  members := memberEntries "key" key keyType ++ memberEntries "value" value valueType

theorem listColumn_eq (path : FieldPath) (element : Node) (twoLevel : Bool) :
    listColumn path element twoLevel =
      memberType element (path.child (identifier element.name)) (.compositeListElement path) >>=
        fun t => .ok (listOf element twoLevel t) := rfl

theorem mapColumn_eq (path : FieldPath) (key value : Node) :
    mapColumn path key value =
      memberType key (path.child (identifier key.name)) (.compositeMapKey path) >>= fun kt =>
        memberType value (path.child (identifier value.name)) (.compositeMapValue path) >>= fun vt =>
          .ok (mapOf key value kt vt) := rfl

/-- What makes a node a column: it is a scalar, a list of scalars, or a map between scalars. -/
inductive IsColumn (n : Node) (path : FieldPath) : Column → Prop
  | scalar {t : PhysicalType} (hn : n.shape path = .ok (.scalar t)) :
      IsColumn n path (scalarColumn n t)
  | list {element : Node} {twoLevel : Bool} {t : PhysicalType}
      (hn : n.shape path = .ok (.list element twoLevel))
      (helement : element.shape (path.child (identifier element.name)) = .ok (.scalar t)) :
      IsColumn n path (listOf element twoLevel t)
  | map {key value : Node} {kt vt : PhysicalType} (hn : n.shape path = .ok (.map key value))
      (hkey : key.shape (path.child (identifier key.name)) = .ok (.scalar kt))
      (hvalue : value.shape (path.child (identifier value.name)) = .ok (.scalar vt)) :
      IsColumn n path (mapOf key value kt vt)

theorem isColumn_of_column? {c : Column} (h : column? n path = .ok (some c)) :
    IsColumn n path c := by
  cases hs : n.shape path with
  | error e =>
    rw [column?_of_error hs] at h
    cases h
  | ok s =>
    cases s with
    | scalar t =>
      rw [column?_of_scalar hs] at h
      cases h
      exact .scalar hs
    | struct cs =>
      rw [column?_of_struct hs] at h
      cases h
    | list element twoLevel =>
      rw [column?_of_list hs, listColumn_eq] at h
      obtain ⟨c', hc, h⟩ := bind_eq_ok_iff.mp h
      obtain ⟨t, ht, hc⟩ := bind_eq_ok_iff.mp hc
      cases h
      cases hc
      exact .list hs (memberType_eq_ok_iff.mp ht)
    | map key value =>
      rw [column?_of_map hs, mapColumn_eq] at h
      obtain ⟨c', hc, h⟩ := bind_eq_ok_iff.mp h
      obtain ⟨kt, hkt, hc⟩ := bind_eq_ok_iff.mp hc
      obtain ⟨vt, hvt, hc⟩ := bind_eq_ok_iff.mp hc
      cases h
      cases hc
      exact .map hs (memberType_eq_ok_iff.mp hkt) (memberType_eq_ok_iff.mp hvt)

/-! ## Entries -/

/-- An entry for a value that may be missing. -/
def optionalEntry (key : String) (value : Option String) : List (String × String) :=
  (value.map fun v => (key, v)).toList

/-- The length of a scalar that has a fixed one. -/
def fixedLength? (n : Node) (t : PhysicalType) : Option Int32 :=
  if t = .fixedLenByteArray then n.typeLength else none

/-- Scale and precision of a logical decimal. -/
def decimal? (n : Node) : Option (Int32 × Int32) :=
  match n.logicalType with
  | some (.decimal scale precision) => some (scale, precision)
  | _ => none

/-- The name of the converted type of a node. -/
def convertedName? (n : Node) : Option String := n.convertedType.map ConvertedType.name

/-- Only types of a fixed length get an entry for it. -/
theorem entries_pushLength (tag : Tag) (n : Node) (t : PhysicalType) (spell : Int32 → String) :
    (if t = .fixedLenByteArray then tag.pushOpt "length" (n.typeLength.map spell)
      else tag).entries =
      tag.entries ++ optionalEntry "length" ((fixedLength? n t).map spell) := by
  unfold fixedLength?
  split
  · exact Tag.entries_pushOpt _ _ _
  · exact (List.append_nil _).symm

theorem entries_scalarEntries (n : Node) (t : PhysicalType) :
    (scalarEntries n t).entries =
      ("type", t.name) :: (optionalEntry "convertedtype" (convertedName? n) ++
        optionalEntry "length" ((fixedLength? n t).map fun l => toString l.toInt) ++
        optionalEntry "scale" ((decimal? n).map fun d => toString d.1.toInt) ++
        optionalEntry "precision" ((decimal? n).map fun d => toString d.2.toInt)) := by
  unfold scalarEntries decimal?
  cases n.logicalType with
  | none => simp [entries_pushLength, optionalEntry, convertedName?]
  | some l =>
    cases l with
    | decimal scale precision => simp [entries_pushLength, optionalEntry, convertedName?]
    | _ => simp [entries_pushLength, optionalEntry, convertedName?]

theorem entries_memberEntries (role : String) (n : Node) (t : PhysicalType) :
    (memberEntries role n t).entries =
      (role ++ "type", t.name) :: optionalEntry (role ++ "convertedtype") (convertedName? n) := by
  simp [memberEntries, optionalEntry, convertedName?]

theorem entries_fieldTag (n : Node) (own members : Tag) :
    (fieldTag n own members).entries =
      ("name", n.name) :: (own.entries ++ ("repetitiontype", n.repetition.name) ::
        members.entries) := by
  simp [fieldTag]

/-! ## Plain keys -/

theorem plain_of_mem_optionalEntry {key : String} (h : ∀ c ∈ key.toList, c.isLower = true)
    (value : Option String) :
    ∀ e ∈ optionalEntry key value, ∀ c ∈ e.1.toList, c.isLower = true := by
  intro e he
  obtain ⟨v, -, rfl⟩ := Option.map_eq_some_iff.mp (Option.mem_toList.mp he)
  exact h

theorem plainKeys_scalarEntries (n : Node) (t : PhysicalType) : (scalarEntries n t).PlainKeys := by
  unfold Tag.PlainKeys
  rw [entries_scalarEntries]
  simp only [List.forall_mem_cons, List.forall_mem_append]
  refine ⟨by simp, ⟨⟨?_, ?_⟩, ?_⟩, ?_⟩
  · exact plain_of_mem_optionalEntry (by simp) _
  · exact plain_of_mem_optionalEntry (by simp) _
  · exact plain_of_mem_optionalEntry (by simp) _
  · exact plain_of_mem_optionalEntry (by simp) _

theorem plainKeys_memberEntries {role : String} (h : ∀ c ∈ role.toList, c.isLower = true)
    (n : Node) (t : PhysicalType) : (memberEntries role n t).PlainKeys := by
  have hrole : ∀ word : String, (∀ c ∈ word.toList, c.isLower = true) →
      ∀ c ∈ (role ++ word).toList, c.isLower = true := by
    intro word hword
    rw [String.toList_append, List.forall_mem_append]
    exact ⟨h, hword⟩
  unfold Tag.PlainKeys
  rw [entries_memberEntries, List.forall_mem_cons]
  exact ⟨hrole "type" (by simp), plain_of_mem_optionalEntry (hrole "convertedtype" (by simp)) _⟩

theorem plainKeys_typeEntry (value : String) : (Tag.push {} "type" value).PlainKeys :=
  Tag.plainKeys_empty.push (by simp) value

theorem plainKeys_fieldTag (n : Node) {own members : Tag} (hown : own.PlainKeys)
    (hmembers : members.PlainKeys) : (fieldTag n own members).PlainKeys := by
  unfold Tag.PlainKeys
  rw [entries_fieldTag]
  simp only [List.forall_mem_cons, List.forall_mem_append]
  exact ⟨by simp, hown, by simp, hmembers⟩

/-- The keys of a column are plain words, whatever the column is made of. -/
theorem IsColumn.plainKeys {c : Column} (h : IsColumn n path c) :
    c.own.PlainKeys ∧ c.members.PlainKeys := by
  cases h with
  | scalar _ => exact ⟨plainKeys_scalarEntries n _, Tag.plainKeys_empty⟩
  | list _ _ =>
    exact ⟨plainKeys_typeEntry _, plainKeys_memberEntries (by simp) _ _⟩
  | map _ _ _ =>
    exact ⟨plainKeys_typeEntry _,
      (plainKeys_memberEntries (by simp) _ _).append (plainKeys_memberEntries (by simp) _ _)⟩

end ParquetStruct.Struct
