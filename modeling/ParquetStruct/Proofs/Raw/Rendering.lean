/-
# ParquetStruct.Proofs.Raw.Rendering — rendering a tree from its raw form.

Two limits bound how deep a tree may be.  Rendering counts the fields from the root down, reading
the containers of the raw form, of which a field takes up two and its annotations and wrappers up to
seven more.  The limits do not fit together: what is rendered at the default depth may be nested too
deeply to be read again.  Up to depth sixty, rendering is the stricter of the two.
-/
import ParquetStruct.Format
import ParquetStruct.Proofs.Raw.RoundTrip
import ParquetStruct.Proofs.Struct.Column
import ParquetStruct.Proofs.Struct.Subtree

namespace ParquetStruct.Raw

open ParquetStruct.Json

variable {n : Node} {path : FieldPath} {maxDepth : Nat}

/-! ## Nesting of fields -/

theorem elim_logicalNesting_le (l : Option LogicalType) : l.elim 0 logicalNesting ≤ 2 := by
  cases l with
  | none => exact Nat.zero_le 2
  | some l =>
    show logicalNesting l ≤ 2
    unfold logicalNesting
    split
    all_goals omega

theorem childrenNesting_le {cs : List Node} {k : Nat} (h : ∀ c ∈ cs, nesting c ≤ k) :
    childrenNesting cs ≤ k + 1 := by
  induction cs with
  | nil => exact Nat.zero_le _
  | cons c cs ih =>
    rw [List.forall_mem_cons] at h
    rw [childrenNesting]
    have hcs := ih h.2
    omega

/-- A node takes up two levels more than its children, and at least three with its logical type. -/
theorem nesting_le {k : Nat} (h : ∀ c ∈ n.children, nesting c ≤ k) : nesting n ≤ max 3 (k + 2) := by
  have hlogical := elim_logicalNesting_le n.logicalType
  have hchildren := childrenNesting_le h
  rw [nesting_eq]
  omega

/-- A tree in which the nodes with a physical code have no children. -/
inductive IsTyped : Node → Prop
  | mk {n : Node} (scalar : n.physicalCode ≠ none → n.children = [])
      (children : ∀ c ∈ n.children, IsTyped c) : IsTyped n

theorem IsTyped.children {n c : Node} (h : IsTyped n) (hc : c ∈ n.children) : IsTyped c := by
  cases h with
  | mk _ hchildren => exact hchildren c hc

theorem IsTyped.nesting_scalar_le (h : IsTyped n) {t : PhysicalType}
    (hs : n.shape path = .ok (.scalar t)) : nesting n ≤ 3 := by
  have hcode : n.physicalCode ≠ none := by
    rw [(Node.shape_eq_scalar_iff.mp hs).1]
    exact Option.some_ne_none _
  cases h with
  | mk hscalar _ =>
    refine nesting_le (k := 0) ?_
    rw [hscalar hcode]
    exact nofun

/-- A column has at most a wrapper between itself and its members. -/
theorem IsTyped.nesting_column_le (h : IsTyped n) {c : Struct.Column}
    (hc : Struct.IsColumn n path c) : nesting n ≤ 7 := by
  cases hc with
  | scalar hn => exact Nat.le_trans (h.nesting_scalar_le hn) (by omega)
  | @list element _ _ hn helement =>
    obtain ⟨repeated, hchildren, hmember⟩ := Node.children_of_list hn
    have hrepeated : IsTyped repeated := h.children (hchildren ▸ List.mem_singleton_self _)
    refine nesting_le (k := 5) ?_
    rw [hchildren, List.forall_mem_singleton]
    rcases hmember with rfl | hmember
    · exact Nat.le_trans (hrepeated.nesting_scalar_le helement) (by omega)
    · refine nesting_le (k := 3) ?_
      rw [hmember, List.forall_mem_singleton]
      exact (hrepeated.children (hmember ▸ List.mem_singleton_self _)).nesting_scalar_le helement
  | @map key value _ _ hn hkey hvalue =>
    obtain ⟨entries, hchildren, hmembers⟩ := Node.children_of_map hn
    have hentries : IsTyped entries := h.children (hchildren ▸ List.mem_singleton_self _)
    have hmember : ∀ m ∈ [key, value], IsTyped m := fun m hm => hentries.children (hmembers ▸ hm)
    refine nesting_le (k := 5) ?_
    rw [hchildren, List.forall_mem_singleton]
    refine nesting_le (k := 3) ?_
    rw [hmembers]
    simp only [List.forall_mem_cons] at hmember ⊢
    exact ⟨hmember.1.nesting_scalar_le hkey, hmember.2.1.nesting_scalar_le hvalue, nofun⟩

/-! ## Nesting of rendered trees -/

theorem nesting_fields_le {cs : List Node} {k : Nat}
    (ih : ∀ c ∈ cs, ∀ path f, IsTyped c → Struct.field maxDepth path c = .ok f →
      nesting c + 2 * path.segments.length ≤ k)
    (hcs : ∀ c ∈ cs, IsTyped c) {fs : List Struct.Field}
    (h : Struct.fields maxDepth path cs = .ok fs) :
    ∀ c ∈ cs, nesting c + 2 * (path.segments.length + 1) ≤ k := by
  induction cs generalizing fs with
  | nil => exact nofun
  | cons c cs ihcs =>
    rw [List.forall_mem_cons] at hcs ⊢
    obtain ⟨f, gs, hf, hgs, -⟩ := Struct.fields_cons_eq_ok h
    constructor
    · have hc := ih c List.mem_cons_self _ f hcs.1 hf
      rw [FieldPath.segments_child, List.length_append, List.length_singleton] at hc
      exact hc
    · exact ihcs (fun d hd => ih d (List.mem_cons_of_mem c hd)) hcs.2 hgs

/-- The deeper a field lies, the less it may be nested itself: every step down takes two levels. -/
theorem nesting_field_le (n : Node) : ∀ path f, IsTyped n → Struct.field maxDepth path n = .ok f →
    nesting n + 2 * path.segments.length ≤ 2 * maxDepth + 9 := by
  induction n using Node.induction with
  | step n ih =>
    intro path f htyped hf
    obtain ⟨hdepth, hstep⟩ := Struct.field_eq_ok hf
    rw [FieldPath.depth] at hdepth
    rcases hstep with ⟨c, hc, -⟩ | ⟨fs, hs, hfs, -⟩
    · have hn := htyped.nesting_column_le (Struct.isColumn_of_column? hc)
      omega
    · have hcs := nesting_fields_le ih (fun c => htyped.children) hfs
      have hn := nesting_le (n := n) (k := 2 * maxDepth + 9 - 2 * (path.segments.length + 1))
        fun c hc => by
          have := hcs c hc
          omega
      omega

/-- A tree that is rendered up to a depth is nested at most about twice as deep. -/
theorem nesting_render_go_le {pretty : Bool} {text : String} (htyped : IsTyped n)
    (h : Format.go.render pretty maxDepth n = .ok text) : nesting n ≤ 2 * maxDepth + 7 := by
  cases hd : Struct.declaration maxDepth n with
  | error e =>
    rw [Format.render, hd] at h
    cases h
  | ok d =>
    obtain ⟨b, hb, -⟩ := bind_eq_ok_iff.mp hd
    have hroot : Struct.field maxDepth (.root (Struct.identifier n.name)) n = .ok (b.asField n) := by
      rw [Struct.field_root, hb]
      rfl
    have hle := nesting_field_le n _ _ htyped hroot
    rw [FieldPath.segments_root, List.length_singleton] at hle
    omega

/-! ## By way of the raw form -/

/-- The document in a raw form of a tree, on one line or with a line for every field. -/
theorem ofChars_render_raw {prettyRaw : Bool} {raw : String}
    (h : Format.raw.render prettyRaw maxDepth n = .ok raw) :
    Document.ofChars raw.toList = ⟨ofNode n, true⟩ := by
  obtain ⟨hcompact, hpretty⟩ := ofChars_tokens (isPlainValue_ofNode n) 0
  cases prettyRaw with
  | false =>
    cases h
    exact String.toList_ofList ▸ hcompact
  | true =>
    cases h
    exact String.toList_ofList ▸ hpretty

theorem read_render_raw {prettyRaw : Bool} {raw : String}
    (h : Format.raw.render prettyRaw maxDepth n = .ok raw) :
    read raw = if nesting n ≤ nestingLimit then .ok n else .error .malformed := by
  rw [read, ofChars_render_raw h]
  exact readDocument_ofNode n

/-- A tree that can be rendered is rendered to the same text by way of its raw form if its nesting
keeps to the limit of reading.  Otherwise its raw form cannot be read, which takes fields more than
sixty levels deep unless something stands below a physical type. -/
theorem render_read_raw {pretty prettyRaw : Bool} {text raw : String}
    (htext : Format.go.render pretty maxDepth n = .ok text)
    (hraw : Format.raw.render prettyRaw maxDepth n = .ok raw) :
    if nesting n ≤ nestingLimit then
      ∃ n', read raw = .ok n' ∧ Format.go.render pretty maxDepth n' = .ok text
    else
      read raw = .error .malformed ∧ (IsTyped n → 60 < maxDepth) := by
  rw [read_render_raw hraw]
  split
  · exact ⟨n, rfl, htext⟩
  · rename_i hnesting
    refine ⟨rfl, fun htyped => ?_⟩
    have hle := nesting_render_go_le htyped htext
    rw [nestingLimit] at hnesting
    omega

theorem render_read_raw_nestedRow : ∃ text raw,
    Format.go.render true 2 Struct.nestedRow = .ok text ∧
      Format.raw.render true 2 Struct.nestedRow = .ok raw ∧
        ∃ n', read raw = .ok n' ∧ Format.go.render true 2 n' = .ok text := by
  have hnesting : nesting Struct.nestedRow ≤ nestingLimit := by decide
  have h := @render_read_raw Struct.nestedRow 2 true true _ _ rfl rfl
  rw [if_pos hnesting] at h
  exact ⟨_, _, rfl, rfl, h⟩

/-! ## Columns far down -/

/-- A schema with one column, so many structs deep. -/
def deepSchema : Nat → Node
  | 0 => { name := "x", physicalCode := some 1 }
  | k + 1 => { name := "s", children := [deepSchema k] }

theorem nesting_deepSchema (k : Nat) : nesting (deepSchema k) = 2 * k + 1 := by
  induction k with
  | zero => rfl
  | succ k ih =>
    show 1 + max 0 (max (1 + nesting (deepSchema k)) 0) = _
    omega

theorem exists_field_deepSchema (k : Nat) : ∀ path : FieldPath,
    path.segments.length + k ≤ maxDepth + 1 →
      ∃ f, Struct.field maxDepth path (deepSchema k) = .ok f := by
  induction k with
  | zero =>
    intro path h
    have hdepth : ¬maxDepth < path.depth := by
      rw [FieldPath.depth]
      omega
    refine ⟨Struct.columnField (deepSchema 0) (Struct.scalarColumn (deepSchema 0) .int32), ?_⟩
    rw [Struct.field_eq, if_neg hdepth, Struct.column?_of_scalar (t := .int32) rfl]
    rfl
  | succ k ih =>
    intro path h
    have hdepth : ¬maxDepth < path.depth := by
      rw [FieldPath.depth]
      omega
    obtain ⟨f, hf⟩ := ih (path.child (Struct.identifier (deepSchema k).name)) <| by
      rw [FieldPath.segments_child, List.length_append, List.length_singleton]
      omega
    have hs : (deepSchema (k + 1)).shape path = .ok (.struct [deepSchema k]) := rfl
    have hfs : Struct.fields maxDepth path [deepSchema k] = .ok [f] := by
      rw [Struct.fields_cons, hf]
      rfl
    refine ⟨Struct.groupField (deepSchema (k + 1)) [f], ?_⟩
    rw [Struct.field_eq, if_neg hdepth, Struct.column?_of_struct hs]
    show (Struct.fields maxDepth path [deepSchema k] >>= fun fs => .ok (Struct.groupField _ fs)) = _
    rw [hfs]
    rfl

theorem exists_render_deepSchema {k : Nat} (pretty : Bool) (h : k ≤ maxDepth) :
    ∃ text, Format.go.render pretty maxDepth (deepSchema k) = .ok text := by
  have hroot : (FieldPath.root (Struct.identifier (deepSchema k).name)).segments.length + k ≤
      maxDepth + 1 := by
    rw [FieldPath.segments_root, List.length_singleton]
    omega
  obtain ⟨f, hf⟩ := exists_field_deepSchema k _ hroot
  rw [Struct.field_root] at hf
  obtain ⟨b, hb, -⟩ := bind_eq_ok_iff.mp hf
  have hd : Struct.declaration maxDepth (deepSchema k) =
      .ok { name := Struct.identifier (deepSchema k).name, body := b } := by
    rw [Struct.declaration, hb]
    rfl
  exact ⟨_, congrArg (Except.map _) hd⟩

/-- A column as deep as the default allows is rendered, but not by way of its raw form. -/
theorem read_deepSchema : ∃ text raw,
    Format.go.render false Struct.defaultMaxDepth (deepSchema 64) = .ok text ∧
      Format.raw.render false Struct.defaultMaxDepth (deepSchema 64) = .ok raw ∧
        read raw = .error .malformed := by
  obtain ⟨text, htext⟩ := exists_render_deepSchema (k := 64) false (Nat.le_refl 64)
  have hraw : Format.raw.render false 64 (deepSchema 64) = .ok (compact (deepSchema 64)) := rfl
  refine ⟨text, compact (deepSchema 64), htext, hraw, ?_⟩
  rw [read_render_raw hraw, nesting_deepSchema]
  rfl

end ParquetStruct.Raw
