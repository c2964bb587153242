/-
# ParquetStruct.Proofs.Struct.Readback — what the text of a struct says about the tree behind it.

The lines of a struct determine the form of its fields and their tags, and a tag determines its
entries.  The entries of a column name the field and its repetition, and a type: the physical type
of a scalar, or LIST or MAP for a container, whose members have entries of their own.  Two trees of
one text therefore agree in all of this, field by field, whatever characters their names hold.
-/
import ParquetStruct.Proofs.Struct.Nesting
import ParquetStruct.Proofs.Text.Decimal

namespace ParquetStruct.Struct

open Text

/-! ## Nodes that agree -/

/-- A node has a shape, under whatever path it is looked at. -/
def HasShape (n : Node) (s : Shape) : Prop := ∀ path, n.shape path = .ok s

/-- Nodes of the same name and the same repetition, which is required if there is none. -/
structure SameLabel (a b : Node) : Prop where
  name : a.name = b.name
  repetition : a.repetition = b.repetition

/-- Scalars of the same physical type and converted type. -/
structure SameMember (a b : Node) : Prop where
  physical : ∃ t, HasShape a (.scalar t) ∧ HasShape b (.scalar t)
  converted : a.convertedType = b.convertedType

/-- Scalars of the same type, with the same length if it is fixed, and the same parameters if they
are decimals. -/
structure SameScalar (a b : Node) : Prop extends SameMember a b where
  length : HasShape a (.scalar .fixedLenByteArray) → a.typeLength = b.typeLength
  decimal : decimal? a = decimal? b

/-- Nodes that stand for the same field: scalars, containers of the same members, or structs whose
children stand for the same fields in the same order. -/
inductive SameField : Node → Node → Prop
  | scalar {a b : Node} (label : SameLabel a b) (scalar : SameScalar a b) : SameField a b
  | list {a b element element' : Node} {twoLevel twoLevel' : Bool} (label : SameLabel a b)
      (left : HasShape a (.list element twoLevel)) (right : HasShape b (.list element' twoLevel'))
      (element : SameMember element element') : SameField a b
  | map {a b key key' value value' : Node} (label : SameLabel a b)
      (left : HasShape a (.map key value)) (right : HasShape b (.map key' value'))
      (key : SameMember key key') (value : SameMember value value') : SameField a b
  | struct {a b : Node} (label : SameLabel a b) (left : HasShape a (.struct a.children))
      (right : HasShape b (.struct b.children))
      (children : List.Forall₂ SameField a.children b.children) : SameField a b

theorem hasShape_of_shape {n : Node} {path : FieldPath} {s : Shape} (h : n.shape path = .ok s) :
    HasShape n s := Node.shape_congr h

/-! ## Looking up entries -/

theorem lookup_optionalEntry (key key' : String) (value : Option String) :
    (optionalEntry key value).lookup key' = if key' == key then value else none := by
  cases value with
  | none => simp [optionalEntry]
  | some v => simp [optionalEntry]

theorem lookup_fieldTag_name (n : Node) (own members : Tag) :
    (fieldTag n own members).entries.lookup "name" = some n.name := by
  rw [entries_fieldTag, List.lookup_cons_self]

theorem lookup_fieldTag_repetition {own : Tag} (h : own.entries.lookup "repetitiontype" = none)
    (n : Node) (members : Tag) :
    (fieldTag n own members).entries.lookup "repetitiontype" = some n.repetition.name := by
  rw [entries_fieldTag, List.lookup_cons, List.lookup_append, h]
  simp

/-- The entries about a scalar itself. -/
theorem lookup_scalar {n : Node} {t : PhysicalType} {entries : List (String × String)}
    (h : (fieldTag n (scalarColumn n t).own (scalarColumn n t).members).entries = entries) :
    entries.lookup "type" = some t.name ∧ entries.lookup "convertedtype" = convertedName? n ∧
      entries.lookup "length" = (fixedLength? n t).map (fun l => toString l.toInt) ∧
      entries.lookup "scale" = (decimal? n).map (fun d => toString d.1.toInt) ∧
      entries.lookup "precision" = (decimal? n).map (fun d => toString d.2.toInt) := by
  rw [← h, scalarColumn, entries_fieldTag, entries_scalarEntries]
  simp only [List.lookup_append, List.lookup_cons, lookup_optionalEntry]
  simp

/-- The entries about a list and its element. -/
theorem lookup_list {n element : Node} {twoLevel : Bool} {t : PhysicalType}
    {entries : List (String × String)}
    (h : (fieldTag n (listOf element twoLevel t).own (listOf element twoLevel t).members).entries =
      entries) :
    entries.lookup "type" = some "LIST" ∧ entries.lookup "valuetype" = some t.name ∧
      entries.lookup "valueconvertedtype" = convertedName? element := by
  rw [← h, listOf, entries_fieldTag, Tag.entries_push, entries_memberEntries]
  simp only [List.lookup_append, List.lookup_cons, lookup_optionalEntry]
  simp [ConvertedType.name]

/-- The entries about a map, its key and its value. -/
theorem lookup_map {n key value : Node} {kt vt : PhysicalType} {entries : List (String × String)}
    (h : (fieldTag n (mapOf key value kt vt).own (mapOf key value kt vt).members).entries =
      entries) :
    entries.lookup "type" = some "MAP" ∧
      (entries.lookup "keytype" = some kt.name ∧
        entries.lookup "keyconvertedtype" = convertedName? key) ∧
      entries.lookup "valuetype" = some vt.name ∧
      entries.lookup "valueconvertedtype" = convertedName? value := by
  rw [← h, mapOf, entries_fieldTag, Tag.entries_push, Tag.entries_append, entries_memberEntries,
    entries_memberEntries]
  simp only [List.lookup_append, List.lookup_cons, lookup_optionalEntry]
  simp [ConvertedType.name]

/-! ## Names and numbers -/

theorem physicalType_of_name {t u : PhysicalType} (h : t.name = u.name) : t = u := by
  have h := congrArg PhysicalType.ofName? h
  simpa using h

theorem physicalType_name_ne (t : PhysicalType) : t.name ≠ "LIST" ∧ t.name ≠ "MAP" := by
  cases t <;> decide

theorem repetition_of_name {r s : Repetition} (h : r.name = s.name) : r = s := by
  have h := congrArg Repetition.ofName? h
  simpa using h

theorem convertedType_of_name? {a b : Node} (h : convertedName? a = convertedName? b) :
    a.convertedType = b.convertedType := by
  unfold convertedName? at h
  have hname : ∀ c : Option ConvertedType,
      (c.map ConvertedType.name).bind ConvertedType.ofName? = c := by
    intro c
    cases c with
    | none => rfl
    | some c => simp
  rw [← hname a.convertedType, h, hname]

theorem int32_of_toString {m n : Int32} (h : toString m.toInt = toString n.toInt) : m = n :=
  Int32.toInt_inj.mp (toString_int_injective h)

theorem decimal?_of_toString {a b : Node}
    (hscale : (decimal? a).map (fun d => toString d.1.toInt) =
      (decimal? b).map (fun d => toString d.1.toInt))
    (hprecision : (decimal? a).map (fun d => toString d.2.toInt) =
      (decimal? b).map (fun d => toString d.2.toInt)) : decimal? a = decimal? b := by
  cases hd : decimal? a with
  | none =>
    rw [hd] at hscale
    exact (Option.map_eq_none_iff.mp hscale.symm).symm
  | some d =>
    rw [hd] at hscale hprecision
    obtain ⟨d', hd', hscale⟩ := Option.map_eq_some_iff.mp hscale.symm
    rw [hd', Option.map_some, Option.map_some, Option.some.injEq] at hprecision
    rw [hd', Option.some.injEq]
    exact Prod.ext (int32_of_toString hscale.symm) (int32_of_toString hprecision)

/-! ## Columns -/

variable {n n' : Node} {path path' : FieldPath} {c c' : Column}

theorem sameLabel_of_entries_eq {own own' members members' : Tag}
    (hown : own.entries.lookup "repetitiontype" = none)
    (hown' : own'.entries.lookup "repetitiontype" = none)
    (h : (fieldTag n own members).entries = (fieldTag n' own' members').entries) :
    SameLabel n n' := by
  have hname := congrArg (List.lookup "name") h
  have hrepetition := congrArg (List.lookup "repetitiontype") h
  rw [lookup_fieldTag_name, lookup_fieldTag_name, Option.some.injEq] at hname
  rw [lookup_fieldTag_repetition hown, lookup_fieldTag_repetition hown', Option.some.injEq]
    at hrepetition
  exact ⟨hname, repetition_of_name hrepetition⟩

theorem lookup_own_repetition (h : IsColumn n path c) :
    c.own.entries.lookup "repetitiontype" = none := by
  cases h with
  | @scalar t _ =>
    show (scalarEntries n t).entries.lookup "repetitiontype" = none
    simp only [entries_scalarEntries, List.lookup_append, List.lookup_cons, lookup_optionalEntry]
    simp
  | list _ _ => rfl
  | map _ _ _ => rfl

theorem sameMember_of_names_eq {t t' : PhysicalType} (hn : n.shape path = .ok (.scalar t))
    (hn' : n'.shape path' = .ok (.scalar t')) (htype : some t.name = some t'.name)
    (hconverted : convertedName? n = convertedName? n') : SameMember n n' := by
  have ht : t = t' := physicalType_of_name (Option.some.inj htype)
  exact ⟨⟨t, hasShape_of_shape hn, ht ▸ hasShape_of_shape hn'⟩,
    convertedType_of_name? hconverted⟩

theorem sameScalar_of_entries_eq {t t' : PhysicalType} (hn : n.shape path = .ok (.scalar t))
    (hn' : n'.shape path' = .ok (.scalar t'))
    (h : (fieldTag n (scalarColumn n t).own (scalarColumn n t).members).entries =
      (fieldTag n' (scalarColumn n' t').own (scalarColumn n' t').members).entries) :
    SameScalar n n' := by
  obtain ⟨htype, hconverted, hlength, hscale, hprecision⟩ := lookup_scalar h
  obtain ⟨htype', hconverted', hlength', hscale', hprecision'⟩ := lookup_scalar (n := n') rfl
  have hname := htype.symm.trans htype'
  refine ⟨sameMember_of_names_eq hn hn' hname (hconverted.symm.trans hconverted'), ?_,
    decimal?_of_toString (hscale.symm.trans hscale') (hprecision.symm.trans hprecision')⟩
  -- The length has an entry only for the type that has a fixed one.
  intro hfixed
  have ht : t = .fixedLenByteArray := by
    have hshape := (hfixed path).symm.trans hn
    cases hshape
    rfl
  have ht' : t' = .fixedLenByteArray :=
    (physicalType_of_name (Option.some.inj hname)).symm.trans ht
  have hlengths := hlength.symm.trans hlength'
  rw [fixedLength?, fixedLength?, if_pos ht, if_pos ht'] at hlengths
  exact Option.map_injective (fun _ _ => int32_of_toString) hlengths

/-- Columns whose tags have the same entries stand for the same field. -/
theorem sameField_of_entries_eq (hc : IsColumn n path c) (hc' : IsColumn n' path' c')
    (h : (fieldTag n c.own c.members).entries = (fieldTag n' c'.own c'.members).entries) :
    SameField n n' := by
  have hlabel := sameLabel_of_entries_eq (lookup_own_repetition hc) (lookup_own_repetition hc') h
  -- The entry for the type tells the three kinds of columns apart.
  cases hc with
  | @scalar t hn =>
    have htype := (lookup_scalar h).1
    cases hc' with
    | scalar hn' => exact .scalar hlabel (sameScalar_of_entries_eq hn hn' h)
    | list _ _ =>
      rw [(lookup_list rfl).1, Option.some.injEq] at htype
      exact absurd htype.symm (physicalType_name_ne t).1
    | map _ _ _ =>
      rw [(lookup_map rfl).1, Option.some.injEq] at htype
      exact absurd htype.symm (physicalType_name_ne t).2
  | list hn helement =>
    obtain ⟨htype, hphysical, hconverted⟩ := lookup_list h
    cases hc' with
    | @scalar t' _ =>
      rw [(lookup_scalar rfl).1, Option.some.injEq] at htype
      exact absurd htype (physicalType_name_ne t').1
    | list hn' helement' =>
      obtain ⟨-, hphysical', hconverted'⟩ := lookup_list (n := n') rfl
      exact .list hlabel (hasShape_of_shape hn) (hasShape_of_shape hn')
        (sameMember_of_names_eq helement helement' (hphysical.symm.trans hphysical')
          (hconverted.symm.trans hconverted'))
    | map _ _ _ =>
      rw [(lookup_map rfl).1] at htype
      exact absurd htype (by decide)
  | map hn hkey hvalue =>
    obtain ⟨htype, ⟨hkeyType, hkeyConverted⟩, hvalueType, hvalueConverted⟩ := lookup_map h
    cases hc' with
    | @scalar t' _ =>
      rw [(lookup_scalar rfl).1, Option.some.injEq] at htype
      exact absurd htype (physicalType_name_ne t').2
    | list _ _ =>
      rw [(lookup_list rfl).1] at htype
      exact absurd htype (by decide)
    | map hn' hkey' hvalue' =>
      obtain ⟨-, ⟨hkeyType', hkeyConverted'⟩, hvalueType', hvalueConverted'⟩ :=
        lookup_map (n := n') rfl
      exact .map hlabel (hasShape_of_shape hn) (hasShape_of_shape hn')
        (sameMember_of_names_eq hkey hkey' (hkeyType.symm.trans hkeyType')
          (hkeyConverted.symm.trans hkeyConverted'))
        (sameMember_of_names_eq hvalue hvalue' (hvalueType.symm.trans hvalueType')
          (hvalueConverted.symm.trans hvalueConverted'))

/-! ## Trees -/

theorem sameField_of_column (hc : column? n path = .ok (some c))
    (hc' : column? n' path' = .ok (some c'))
    (h : (fieldTag n c.own c.members).chars = (fieldTag n' c'.own c'.members).chars) :
    SameField n n' := by
  have hcolumn := isColumn_of_column? hc
  have hcolumn' := isColumn_of_column? hc'
  have hplain := hcolumn.plainKeys
  have hplain' := hcolumn'.plainKeys
  exact sameField_of_entries_eq hcolumn hcolumn' <| Tag.entries_eq_of_chars_eq
    (plainKeys_fieldTag n hplain.1 hplain.2) (plainKeys_fieldTag n' hplain'.1 hplain'.2) h

theorem sameLabel_of_group (h : (fieldTag n {} {}).chars = (fieldTag n' {} {}).chars) :
    SameLabel n n' :=
  sameLabel_of_entries_eq rfl rfl <| Tag.entries_eq_of_chars_eq
    (plainKeys_fieldTag n Tag.plainKeys_empty Tag.plainKeys_empty)
    (plainKeys_fieldTag n' Tag.plainKeys_empty Tag.plainKeys_empty) h

variable {maxDepth maxDepth' : Nat}

theorem sameField_of_fields {cs cs' : List Node} {fs fs' : List Field}
    (ih : ∀ c ∈ cs, ∀ path path' c' f f', field maxDepth path c = .ok f →
      field maxDepth' path' c' = .ok f' → SameTags f f' → SameField c c')
    (hfs : fields maxDepth path cs = .ok fs) (hfs' : fields maxDepth' path' cs' = .ok fs')
    (h : List.Forall₂ SameTags fs fs') : List.Forall₂ SameField cs cs' := by
  induction cs generalizing cs' fs fs' with
  | nil =>
    cases hfs
    cases h
    cases cs' with
    | nil => exact .nil
    | cons c' cs' =>
      obtain ⟨f', gs', -, -, hcons⟩ := fields_cons_eq_ok hfs'
      cases hcons
  | cons c cs ihcs =>
    obtain ⟨f, gs, hf, hgs, rfl⟩ := fields_cons_eq_ok hfs
    -- As many fields came from the other children, so there is a first one among these too.
    obtain ⟨g', gs₂, hff', hgg', rfl⟩ := List.forall₂_cons_left_iff.mp h
    cases cs' with
    | nil => cases hfs'
    | cons c' cs' =>
      obtain ⟨f', gs', hf', hgs', hcons⟩ := fields_cons_eq_ok hfs'
      cases hcons
      exact .cons (ih c List.mem_cons_self _ _ c' _ _ hf hf' hff')
        (ihcs (fun d hd => ih d (List.mem_cons_of_mem c hd)) hgs hgs' hgg')

/-- Nodes whose fields have the same form and the same tags stand for the same field. -/
theorem sameField_of_sameTags (n : Node) : ∀ path path' n' f f', field maxDepth path n = .ok f →
    field maxDepth' path' n' = .ok f' → SameTags f f' → SameField n n' := by
  induction n using Node.induction with
  | step n ih =>
    intro path path' n' f f' hf hf' h
    -- Fields of the same form come both from columns or both from structs.
    rcases (field_eq_ok hf).2 with ⟨c, hc, rfl⟩ | ⟨fs, hs, hfs, rfl⟩
    · rcases (field_eq_ok hf').2 with ⟨c', hc', rfl⟩ | ⟨fs', -, -, rfl⟩
      · cases h with
        | column htag => exact sameField_of_column hc hc' htag
      · cases h
    · rcases (field_eq_ok hf').2 with ⟨c', -, rfl⟩ | ⟨fs', hs', hfs', rfl⟩
      · cases h
      · cases h with
        | group hfields htag =>
          exact .struct (sameLabel_of_group htag) (hasShape_of_shape hs) (hasShape_of_shape hs')
            (sameField_of_fields ih hfs hfs' hfields)

/-- Two trees that are rendered as structs of the same text have the same fields, in the same order
and down to the last, whatever their names are made of. -/
theorem sameFields_of_text_eq {t t' : Node} {cs cs' : List Node} {b b' : Body}
    (ht : t.shape (.root (identifier t.name)) = .ok (.struct cs))
    (ht' : t'.shape (.root (identifier t'.name)) = .ok (.struct cs'))
    (hb : body maxDepth t = .ok b) (hb' : body maxDepth' t' = .ok b') (htext : b.text = b'.text) :
    List.Forall₂ SameField t.children t'.children := by
  have hfields : ∀ {d : Nat} {u : Node} {us : List Node} {b : Body},
      u.shape (.root (identifier u.name)) = .ok (.struct us) → body d u = .ok b →
      ∃ fs, fields d (.root (identifier u.name)) u.children = .ok fs ∧ b = .struct fs := by
    intro d u us b hu hb
    rcases body_eq_ok hb with ⟨c, hc, -⟩ | ⟨fs, -, hfs, rfl⟩
    · rw [column?_of_struct hu] at hc
      cases hc
    · exact ⟨fs, hfs, rfl⟩
  obtain ⟨fs, hfs, rfl⟩ := hfields ht hb
  obtain ⟨fs', hfs', rfl⟩ := hfields ht' hb'
  have hchars : (Body.struct fs).chars = (Body.struct fs').chars := String.ofList_injective htext
  exact sameField_of_fields (fun c _ => sameField_of_sameTags c) hfs hfs'
    (sameTags_of_chars_eq (isHead_of_fields hfs) (isHead_of_fields hfs') hchars)

/-- A schema with a nested column, under names that hold delimiters; the column is an integer, for
which a length makes no difference. -/
def delimitedSchema (length : Option Int32) : Node :=
  { name := "\x7d", children := [
    { name := "a=b, c\n", children := [
      { name := "\x60", physicalCode := some 1, typeLength := length }] }] }

theorem sameFields_delimitedSchema : ∃ b b', body 2 (delimitedSchema none) = .ok b ∧
    body 64 (delimitedSchema (some 4)) = .ok b' ∧ b.text = b'.text ∧
      List.Forall₂ SameField (delimitedSchema none).children
        (delimitedSchema (some 4)).children :=
  ⟨_, _, rfl, rfl, rfl, @sameFields_of_text_eq 2 64 _ _ _ _ _ _ rfl rfl rfl rfl rfl⟩

end ParquetStruct.Struct
