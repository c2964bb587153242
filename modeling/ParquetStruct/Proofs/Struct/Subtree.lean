/-
# ParquetStruct.Proofs.Struct.Subtree — a subtree is rendered alike wherever it stands.

A node may be rendered as a root of its own, or as a field of a struct.  The two walks take the same
steps, at paths that differ in one name in front, and under limits that differ by one; so they yield
the same text, and errors that differ in the same way.  `under` is that difference, and each function
that looks at a path is shown to commute with it.  A struct is therefore rendered from the texts of
its children, each taken by itself, or fails as the first child does that fails.
-/
import ParquetStruct.Proofs.Struct.Walk
import Mathlib.Data.List.Forall2

namespace ParquetStruct

/-! ## One level further down -/

/-- The same path, seen from a node above its first one. -/
def FieldPath.under (name : String) (p : FieldPath) : FieldPath := ⟨name :: p.segments⟩

/-- The same error, seen from a node above: its path starts there, and a limit on the depth is one
more. -/
def SchemaError.under (name : String) : SchemaError → SchemaError
  | .typeNotSet p => .typeNotSet (p.under name)
  | .unknownPhysicalType code p => .unknownPhysicalType code (p.under name)
  | .compositeMapKey p => .compositeMapKey (p.under name)
  | .compositeMapValue p => .compositeMapValue (p.under name)
  | .compositeListElement p => .compositeListElement (p.under name)
  | .malformedContainer container p fault => .malformedContainer container (p.under name) fault
  | .depthExceeded maxDepth p => .depthExceeded (maxDepth + 1) (p.under name)

variable {name : String} {p : FieldPath}

theorem FieldPath.root_child (name childName : String) :
    (FieldPath.root name).child childName = (FieldPath.root childName).under name := rfl

theorem FieldPath.depth_under (h : p.segments ≠ []) : (p.under name).depth = p.depth + 1 := by
  have hlength : 0 < p.segments.length := List.length_pos_iff.mpr h
  show (name :: p.segments).length - 1 = p.segments.length - 1 + 1
  rw [List.length_cons]
  omega

theorem FieldPath.segments_child_ne_nil (p : FieldPath) (childName : String) :
    (p.child childName).segments ≠ [] := by
  rw [FieldPath.segments_child]
  exact List.append_ne_nil_of_right_ne_nil _ (List.cons_ne_nil _ _)

/-! ## Classification -/

namespace Node

variable {n : Node}

theorem physicalType?_under (n : Node) (p : FieldPath) (name : String) :
    n.physicalType? (p.under name) = (n.physicalType? p).mapError (.under name) := by
  unfold physicalType?
  split
  · split
    · rfl
    · rfl
  · split
    · rfl
    · rfl

theorem listShape_under (n : Node) (p : FieldPath) (name : String) :
    n.listShape (p.under name) = (n.listShape p).mapError (.under name) := by
  unfold listShape
  split
  · split
    · split
      · rfl
      · rfl
    · rfl
  · rfl

theorem mapShape_under (n : Node) (p : FieldPath) (name : String) :
    n.mapShape (p.under name) = (n.mapShape p).mapError (.under name) := by
  unfold mapShape
  split
  · split
    · split
      · rfl
      · rfl
    · rfl
  · rfl

theorem shape_under (n : Node) (p : FieldPath) (name : String) :
    n.shape (p.under name) = (n.shape p).mapError (.under name) := by
  cases hl : n.isListAnnotated with
  | true => simp only [shape_of_list hl, mapError_bind, physicalType?_under, listShape_under]
  | false =>
    cases hm : n.isMapAnnotated with
    | true => simp only [shape_of_map hl hm, mapError_bind, physicalType?_under, mapShape_under]
    | false => simp only [shape_of_plain hl hm, mapError_bind, physicalType?_under, mapError_ok]

end Node

namespace Struct

variable {n : Node}

/-! ## Columns -/

theorem memberType_under (n : Node) (p : FieldPath) (name : String) (composite : SchemaError) :
    memberType n (p.under name) (composite.under name) =
      (memberType n p composite).mapError (.under name) := by
  rw [memberType_eq, memberType_eq, mapError_bind, Node.physicalType?_under]
  congr 1
  funext t
  split
  · split
    · rfl
    · rfl
  · rfl

theorem listColumn_under (p : FieldPath) (name : String) (element : Node) (twoLevel : Bool) :
    listColumn (p.under name) element twoLevel =
      (listColumn p element twoLevel).mapError (.under name) := by
  unfold listColumn
  rw [mapError_bind, ← memberType_under]
  rfl

theorem mapColumn_under (p : FieldPath) (name : String) (key value : Node) :
    mapColumn (p.under name) key value = (mapColumn p key value).mapError (.under name) := by
  unfold mapColumn
  simp only [mapError_bind, ← memberType_under]
  rfl

theorem column?_under (n : Node) (p : FieldPath) (name : String) :
    column? n (p.under name) = (column? n p).mapError (.under name) := by
  unfold column?
  rw [mapError_bind, Node.shape_under]
  congr 1
  funext s
  cases s with
  | scalar t => rfl
  | struct cs => rfl
  | list element twoLevel =>
    simp only [mapError_bind, listColumn_under]
    rfl
  | map key value =>
    simp only [mapError_bind, mapColumn_under]
    rfl

/-! ## The walk -/

theorem fields_under {cs : List Node}
    (ih : ∀ c ∈ cs, ∀ d p, p.segments ≠ [] →
      field (d + 1) (p.under name) c = (field d p c).mapError (.under name))
    (d : Nat) (p : FieldPath) :
    fields (d + 1) (p.under name) cs = (fields d p cs).mapError (.under name) := by
  induction cs with
  | nil => rfl
  | cons c cs ihcs =>
    have hc : field (d + 1) ((p.under name).child (identifier c.name)) c =
        (field d (p.child (identifier c.name)) c).mapError (.under name) :=
      ih c List.mem_cons_self d _ (p.segments_child_ne_nil _)
    have hcs := ihcs fun e he => ih e (List.mem_cons_of_mem c he)
    simp only [fields_cons, mapError_bind, hc, hcs, mapError_ok]

/-- The walk over a subtree takes the same steps one level further down. -/
theorem field_under (name : String) (n : Node) : ∀ d p, p.segments ≠ [] →
    field (d + 1) (p.under name) n = (field d p n).mapError (.under name) := by
  induction n using Node.induction with
  | step n ih =>
    intro d p hp
    -- The limit and the depth of the node have both grown by one.
    rw [field_eq, field_eq, FieldPath.depth_under hp]
    by_cases hdepth : d < p.depth
    · rw [if_pos hdepth, if_pos (Nat.add_lt_add_right hdepth 1)]
      rfl
    · rw [if_neg hdepth, if_neg (by omega), mapError_bind, column?_under]
      congr 1
      funext c
      cases c with
      | some c => rfl
      | none =>
        simp only [mapError_bind, fields_under ih, mapError_ok]

/-! ## Children as roots -/

/-- The tag of the field that a node becomes. -/
def nodeTag (c : Node) : Tag :=
  match column? c (.root (identifier c.name)) with
  | .ok (some column) => fieldTag c column.own column.members
  | _ => fieldTag c {} {}

/-- The field of a node, given what the node becomes as a root. -/
def Body.asField (c : Node) : Body → Field
  | .column type => .column (identifier c.name) c.repetition type (nodeTag c)
  | .struct fs => .group (identifier c.name) c.repetition fs (nodeTag c)

/-- The line or lines of the field of a node, given the text of the node as a root. -/
def fieldText (c : Node) (text : String) : String :=
  identifier c.name ++ " " ++ mark c.repetition ++ text ++ " " ++ (nodeTag c).text ++ "\n"

theorem field_root (d : Nat) (c : Node) :
    field d (.root (identifier c.name)) c = body d c >>= fun b => .ok (b.asField c) := by
  rw [field_eq, body_eq, FieldPath.depth_root, if_neg (Nat.not_lt_zero d)]
  cases hc : column? c (.root (identifier c.name)) with
  | error e => rfl
  | ok column =>
    cases column with
    | some column =>
      have htag : nodeTag c = fieldTag c column.own column.members := by
        rw [nodeTag, hc]
      simp only [ok_bind, Body.asField, htag, columnField]
    | none =>
      have htag : nodeTag c = fieldTag c {} {} := by
        rw [nodeTag, hc]
      simp only [ok_bind, groupField, ← htag]
      cases fields d (.root (identifier c.name)) c.children with
      | error e => rfl
      | ok fs => rfl

/-- A child of a struct is rendered as by itself, under a limit that is one less. -/
theorem field_child (d : Nat) (name : String) (c : Node) :
    field (d + 1) ((FieldPath.root name).child (identifier c.name)) c =
      (body d c).mapError (.under name) >>= fun b => .ok (b.asField c) := by
  have hroot : (FieldPath.root (identifier c.name)).segments ≠ [] := List.cons_ne_nil _ _
  rw [FieldPath.root_child, field_under name c d _ hroot, field_root, mapError_bind]
  rfl

theorem chars_asField (c : Node) (b : Body) :
    (b.asField c).chars = (fieldText c b.text).toList := by
  have htext : (nodeTag c).text.toList = (nodeTag c).chars := String.toList_ofList
  have hbody : b.text.toList = b.chars := String.toList_ofList
  unfold fieldText
  simp only [String.toList_append, htext, hbody]
  cases b <;> simp [Body.asField, Field.chars, fieldChars, Body.chars]

theorem Body.text_struct {fs : List Field} {text : String}
    (h : Field.listChars fs = text.toList) :
    (Body.struct fs).text = "struct \x7b\n" ++ text ++ "\x7d" := by
  have hclose : "\x7d".toList = ['\x7d'] := by simp
  rw [← String.toList_inj, String.toList_append, String.toList_append, hclose, ← h]
  exact String.toList_ofList

/-- If every child can be rendered, so can the fields of a struct, and their text is made of the
texts of the children, one after the other. -/
theorem fields_eq_ok_of_children (name : String) {d : Nat} {cs : List Node}
    {texts : List String}
    (h : List.Forall₂ (fun c text => (body d c).map Body.text = .ok text) cs texts) :
    ∃ fs, fields (d + 1) (.root name) cs = .ok fs ∧
      Field.listChars fs = (String.join (List.zipWith fieldText cs texts)).toList := by
  induction h with
  | nil => exact ⟨[], rfl, by simp⟩
  | @cons c text cs texts hc hcs ih =>
    obtain ⟨fs, hfs, hchars⟩ := ih
    obtain ⟨b, hb, rfl⟩ : ∃ b, body d c = .ok b ∧ b.text = text := by
      cases hb : body d c with
      | error e => rw [hb] at hc; cases hc
      | ok b => rw [hb] at hc; cases hc; exact ⟨b, rfl, rfl⟩
    refine ⟨b.asField c :: fs, ?_, ?_⟩
    · rw [fields_cons, field_child, hb, hfs]
      rfl
    · rw [Field.listChars_cons, hchars, chars_asField]
      simp

/-- If some child cannot be rendered, the fields of a struct fail as the first such child does. -/
theorem fields_eq_error_of_child {d : Nat} {before after : List Node} {c : Node} {e : SchemaError}
    (hbefore : ∀ c ∈ before, ∃ b, body d c = .ok b) (hc : body d c = .error e) :
    fields (d + 1) (.root name) (before ++ c :: after) = .error (e.under name) := by
  induction before with
  | nil =>
    rw [List.nil_append, fields_cons, field_child, hc]
    rfl
  | cons c' before ih =>
    obtain ⟨b, hb⟩ := hbefore c' List.mem_cons_self
    rw [List.cons_append, fields_cons, field_child, hb,
      ih fun c hc => hbefore c (List.mem_cons_of_mem c' hc)]
    rfl

/-- A struct is rendered from the texts of its children, each rendered as a root under a limit that
is one less; if some child cannot be rendered, the struct fails as the first such child does, with
its own name in front of the path and its own limit. -/
theorem body_succ_of_struct {cs : List Node} (h : n.shape p = .ok (.struct cs)) (d : Nat) :
    (∀ texts, List.Forall₂ (fun c text => (body d c).map Body.text = .ok text) cs texts →
      (body (d + 1) n).map Body.text =
        .ok ("struct \x7b\n" ++ String.join (List.zipWith fieldText cs texts) ++ "\x7d")) ∧
      ∀ before c after e, cs = before ++ c :: after →
        (∀ c' ∈ before, ∃ b, body d c' = .ok b) → body d c = .error e →
          body (d + 1) n = .error (e.under (identifier n.name)) := by
  have hcs : cs = n.children := (Node.shape_eq_struct_iff.mp h).1
  have hbody : body (d + 1) n = fields (d + 1) (.root (identifier n.name)) cs >>= fun fs =>
      .ok (.struct fs) := by
    rw [body_eq, column?_of_struct (Node.shape_congr h _), hcs]
    rfl
  constructor
  · intro texts htexts
    obtain ⟨fs, hfs, hchars⟩ := fields_eq_ok_of_children (identifier n.name) htexts
    rw [hbody, hfs, ok_bind, Except.map, Body.text_struct hchars]
  · intro before c after e hsplit hbefore hc
    rw [hbody, hsplit, fields_eq_error_of_child hbefore hc]
    rfl

/-- A schema with a column and an optional struct, which holds another column. -/
def nestedRow : Node :=
  { name := "row", children := [
    { name := "id", physicalCode := some 2 },
    { name := "a b", repetitionType := some .optional, children := [
      { name := "x", physicalCode := some 6 }] }] }

theorem body_succ_nestedRow :
    (∃ texts,
      List.Forall₂ (fun c text => (body 1 c).map Body.text = .ok text) nestedRow.children texts ∧
        (body 2 nestedRow).map Body.text = .ok ("struct \x7b\n" ++
          String.join (List.zipWith fieldText nestedRow.children texts) ++ "\x7d")) ∧
      ∃ before c, nestedRow.children = before ++ [c] ∧
        body 0 c = .error (.depthExceeded 0 ⟨["A32b", "X"]⟩) ∧
          body 1 nestedRow = .error (.depthExceeded 1 ⟨["Row", "A32b", "X"]⟩) := by
  have hstruct : nestedRow.shape {} = .ok (.struct nestedRow.children) := rfl
  have htexts : List.Forall₂ (fun c text => (body 1 c).map Body.text = .ok text)
      nestedRow.children _ := .cons rfl (.cons rfl .nil)
  refine ⟨⟨_, htexts, (body_succ_of_struct hstruct 1).1 _ htexts⟩, [_], _, rfl, rfl, ?_⟩
  exact (body_succ_of_struct hstruct 0).2 [_] _ [] (.depthExceeded 0 ⟨["A32b", "X"]⟩) rfl
    (List.forall_mem_singleton.mpr ⟨_, rfl⟩) rfl

end Struct

end ParquetStruct
