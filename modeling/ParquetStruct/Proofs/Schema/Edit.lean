/-
# ParquetStruct.Proofs.Schema.Edit — editing one node of a tree.

An edit at some child indices rebuilds the nodes on the way there, each with one child replaced, and
nothing else.  So the laws of edits come from those of replacing a single child: what is found below
the place of an edit, beside it and above it, and how two edits go together.  All inductions are on
the indices, and each step replaces the child that the edit goes through.
-/
import ParquetStruct.Proofs.Schema.Node
import Mathlib.Data.List.Basic

namespace ParquetStruct.Node

variable {n n' c d : Node} {f g : Node → Node} {i j : Nat} {p q : List Nat}

/-! ## Replacing one child -/

/-- The node with another child in one place. -/
def setChild (n : Node) (i : Nat) (c : Node) : Node :=
  { n with children := n.children.set i c }

@[simp] theorem children_setChild (n : Node) (i : Nat) (c : Node) :
    (n.setChild i c).children = n.children.set i c := rfl

theorem setChild_setChild (n : Node) (i : Nat) (c d : Node) :
    (n.setChild i c).setChild i d = n.setChild i d := by
  simp [setChild]

theorem setChild_comm (h : i ≠ j) (n c d : Node) :
    (n.setChild i c).setChild j d = (n.setChild j d).setChild i c := by
  simp [setChild, List.set_comm _ _ h]

/-- To put a child where it is changes nothing. -/
theorem setChild_eq_self (h : n.children[i]? = some c) : n.setChild i c = n := by
  obtain ⟨hi, rfl⟩ := List.getElem?_eq_some_iff.mp h
  rw [setChild, List.set_getElem_self]
  cases n
  rfl

/-- Where there was a child, the new one is found. -/
theorem getElem?_setChild_self (h : n.children[i]? = some c) (d : Node) :
    (n.setChild i d).children[i]? = some d := by
  obtain ⟨hi, -⟩ := List.getElem?_eq_some_iff.mp h
  rw [children_setChild, List.getElem?_set_self hi]

theorem getElem?_setChild_of_ne (h : i ≠ j) (n d : Node) :
    (n.setChild i d).children[j]? = n.children[j]? := by
  rw [children_setChild, List.getElem?_set_ne h]

/-! ## One edit -/

/-- An edit below a node edits one child, and puts it back. -/
theorem patched_cons_eq (n : Node) (f : Node → Node) (i : Nat) (p : List Nat) :
    n.patched f (i :: p) =
      (n.children[i]?.bind fun c => c.patched f p).map fun c' => n.setChild i c' := by
  rw [patched_cons, Option.map_bind]
  rfl

theorem patched_cons_eq_some_iff : n.patched f (i :: p) = some n' ↔
    ∃ c c', n.children[i]? = some c ∧ c.patched f p = some c' ∧ n.setChild i c' = n' := by
  rw [patched_cons_eq, Option.map_eq_some_iff]
  simp only [Option.bind_eq_some_iff]
  constructor
  · rintro ⟨c', ⟨c, hc, hc'⟩, hn⟩
    exact ⟨c, c', hc, hc', hn⟩
  · rintro ⟨c, c', hc, hc', hn⟩
    exact ⟨c', ⟨c, hc, hc'⟩, hn⟩

/-- An edit fails exactly where there is no node. -/
theorem patched_eq_none_iff : n.patched f p = none ↔ n.descendant p = none := by
  induction p generalizing n with
  | nil => simp
  | cons i p ih =>
    rw [patched_cons_eq, descendant_cons]
    cases n.children[i]? with
    | none => simp
    | some c => simp [ih]

/-- Below the place of an edit stands what stands below the edited node. -/
theorem descendant_patched_append (h : n.patched f p = some n') (q : List Nat) :
    n'.descendant (p ++ q) = (n.descendant p).bind fun m => (f m).descendant q := by
  induction p generalizing n n' with
  | nil =>
    cases h
    rfl
  | cons i p ih =>
    obtain ⟨c, c', hc, hc', rfl⟩ := patched_cons_eq_some_iff.mp h
    show (n.setChild i c').descendant (i :: (p ++ q)) = _
    rw [descendant_cons, getElem?_setChild_self hc, Option.bind_some, ih hc', descendant_cons, hc,
      Option.bind_some]

/-- On the way to the place of an edit, a node has one other child, and is the same otherwise. -/
theorem descendant_patched_above {s : List Nat} (r : List Nat)
    (h : n.patched f (r ++ i :: s) = some n') :
    ∃ m c c', n.descendant r = some m ∧ m.children[i]? = some c ∧
      n'.descendant r = some (m.setChild i c') := by
  induction r generalizing n n' with
  | nil =>
    obtain ⟨c, c', hc, -, rfl⟩ := patched_cons_eq_some_iff.mp h
    exact ⟨n, c, c', rfl, hc, rfl⟩
  | cons j r ih =>
    obtain ⟨d, d', hd, hd', rfl⟩ := patched_cons_eq_some_iff.mp h
    obtain ⟨m, c, c', hm, hc, hm'⟩ := ih hd'
    refine ⟨m, c, c', ?_, hc, ?_⟩
    · rw [descendant_cons, hd, Option.bind_some, hm]
    · rw [descendant_cons, getElem?_setChild_self hd, Option.bind_some, hm']

/-! ## Places apart -/

/-- Neither list of indices starts with the other, so that neither place lies below the other. -/
def Apart (p q : List Nat) : Prop := ¬p <+: q ∧ ¬q <+: p

/-- Places that are apart lie in different children, or in the same child and are apart there. -/
theorem Apart.exists_eq_cons (h : Apart p q) :
    ∃ i p' j q', p = i :: p' ∧ q = j :: q' ∧ (i ≠ j ∨ i = j ∧ Apart p' q') := by
  obtain ⟨hpq, hqp⟩ := h
  cases p with
  | nil => exact absurd List.nil_prefix hpq
  | cons i p =>
    cases q with
    | nil => exact absurd List.nil_prefix hqp
    | cons j q =>
      refine ⟨i, p, j, q, rfl, rfl, ?_⟩
      by_cases hij : i = j
      · subst hij
        simp only [List.cons_prefix_cons, true_and] at hpq hqp
        exact Or.inr ⟨rfl, hpq, hqp⟩
      · exact Or.inl hij

/-- An edit leaves everything in its place that lies neither below nor above. -/
theorem descendant_patched_of_apart (h : n.patched f p = some n') (hpq : Apart p q) :
    n'.descendant q = n.descendant q := by
  induction p generalizing n n' q with
  | nil => exact absurd List.nil_prefix hpq.1
  | cons i p ih =>
    obtain ⟨c, c', hc, hc', rfl⟩ := patched_cons_eq_some_iff.mp h
    obtain ⟨_, _, j, q, heq, rfl, hij⟩ := hpq.exists_eq_cons
    cases heq
    rw [descendant_cons, descendant_cons]
    rcases hij with hij | ⟨rfl, hpq'⟩
    · rw [getElem?_setChild_of_ne hij]
    · rw [getElem?_setChild_self hc, hc, Option.bind_some, Option.bind_some, ih hc' hpq']

/-! ## Two edits -/

/-- After a child was replaced, an edit below it starts from the new child. -/
theorem patched_setChild_self (h : n.children[i]? = some c) (d : Node) (f : Node → Node)
    (p : List Nat) :
    (n.setChild i d).patched f (i :: p) = (d.patched f p).map fun d' => n.setChild i d' := by
  rw [patched_cons_eq, getElem?_setChild_self h, Option.bind_some]
  simp only [setChild_setChild]

/-- After a child was replaced, an edit below another child does what it did before. -/
theorem patched_setChild_of_ne (h : i ≠ j) (n c : Node) (f : Node → Node) (p : List Nat) :
    (n.setChild i c).patched f (j :: p) =
      (n.patched f (j :: p)).map fun m => m.setChild i c := by
  rw [patched_cons_eq, patched_cons_eq, getElem?_setChild_of_ne h, Option.map_map]
  congr 1
  funext d
  exact setChild_comm h n c d

/-- Two edits at the same child are two edits in this child. -/
theorem patched_bind_patched_cons (n : Node) (f g : Node → Node) (i : Nat) (p q : List Nat) :
    ((n.patched f (i :: p)).bind fun m => m.patched g (i :: q)) =
      (n.children[i]?.bind fun c => (c.patched f p).bind fun c' => c'.patched g q).map
        fun c' => n.setChild i c' := by
  rw [patched_cons_eq]
  cases hc : n.children[i]? with
  | none => rfl
  | some c =>
    simp only [Option.bind_some, Option.bind_map, Option.map_bind]
    congr 1
    funext c'
    exact patched_setChild_self hc c' g q

/-- Two edits at the same place are one edit by both functions. -/
theorem patched_bind_patched (n : Node) (f g : Node → Node) (p : List Nat) :
    ((n.patched f p).bind fun m => m.patched g p) = n.patched (g ∘ f) p := by
  induction p generalizing n with
  | nil => rfl
  | cons i p ih =>
    rw [patched_bind_patched_cons, patched_cons_eq]
    simp only [ih]

/-- An edit that changes nothing gives the tree back, where it succeeds. -/
theorem patched_id (n : Node) (p : List Nat) :
    n.patched id p = (n.descendant p).map fun _ => n := by
  induction p generalizing n with
  | nil => rfl
  | cons i p ih =>
    rw [patched_cons_eq, descendant_cons]
    cases hc : n.children[i]? with
    | none => rfl
    | some c =>
      rw [Option.bind_some, Option.bind_some, ih, Option.map_map]
      congr 1
      funext _
      exact setChild_eq_self hc

/-- Edits below different children can be made in either order. -/
theorem patched_bind_comm_of_ne (h : i ≠ j) (n : Node) (f g : Node → Node) (p q : List Nat) :
    ((n.patched f (i :: p)).bind fun m => m.patched g (j :: q)) =
      (n.patched g (j :: q)).bind fun m => m.patched f (i :: p) := by
  have hleft (c : Node) : (n.setChild i c).patched g (j :: q) =
      (n.patched g (j :: q)).map fun m => m.setChild i c := patched_setChild_of_ne h n c g q
  have hright (d : Node) : (n.setChild j d).patched f (i :: p) =
      (n.patched f (i :: p)).map fun m => m.setChild j d := patched_setChild_of_ne h.symm n d f p
  rw [patched_cons_eq n f] at hright ⊢
  rw [patched_cons_eq n g] at hleft ⊢
  -- Each edit comes down to the child that it puts back, if there is one.
  generalize (n.children[i]?.bind fun c => c.patched f p) = edited at hright ⊢
  generalize (n.children[j]?.bind fun d => d.patched g q) = edited' at hleft ⊢
  cases edited with
  | none =>
    cases edited' with
    | none => rfl
    | some d => exact (hright d).symm
  | some c =>
    cases edited' with
    | none => exact hleft c
    | some d =>
      show (n.setChild i c).patched g (j :: q) = (n.setChild j d).patched f (i :: p)
      rw [hleft, hright]
      exact congrArg some (setChild_comm h n c d).symm

/-- Edits at places apart can be made in either order. -/
theorem patched_bind_comm (hpq : Apart p q) (n : Node) (f g : Node → Node) :
    ((n.patched f p).bind fun m => m.patched g q) =
      (n.patched g q).bind fun m => m.patched f p := by
  induction p generalizing n q with
  | nil => exact absurd List.nil_prefix hpq.1
  | cons i p ih =>
    obtain ⟨_, _, j, q, heq, rfl, hij⟩ := hpq.exists_eq_cons
    cases heq
    rcases hij with hij | ⟨rfl, hpq'⟩
    · exact patched_bind_comm_of_ne hij n f g p q
    · rw [patched_bind_patched_cons, patched_bind_patched_cons]
      simp only [ih hpq']

/-! ## The laws of edits -/

/-- A tree that differs from another by an edit in one place: the edited node and what is below it
stand there, all places apart from it are as they were, and the nodes on the way have one other child
each. -/
structure IsEdited (f : Node → Node) (p : List Nat) (t t' : Node) : Prop where
  below (q : List Nat) :
    t'.descendant (p ++ q) = (t.descendant p).bind fun n => (f n).descendant q
  beside (q : List Nat) (h : Apart p q) : t'.descendant q = t.descendant q
  above (r : List Nat) (i : Nat) (s : List Nat) (h : p = r ++ i :: s) :
    ∃ n c c', t.descendant r = some n ∧ n.children[i]? = some c ∧
      t'.descendant r = some (n.setChild i c')

theorem isEdited_of_patched {t t' : Node} (h : t.patched f p = some t') : IsEdited f p t t' where
  below := descendant_patched_append h
  beside _ hpq := descendant_patched_of_apart h hpq
  above r i s hp := by
    subst hp
    exact descendant_patched_above r h

/-- Editing a tree is a local matter.  It fails where there is no node, and otherwise changes one node
and nothing beside it; edits at one place come together as one, the edit that changes nothing gives
back the tree, and edits at places apart do not depend on their order, even if they fail. -/
theorem patched_isLawful (t : Node) (p : List Nat) (f : Node → Node) :
    (t.patched f p = none ↔ t.descendant p = none) ∧
      (∀ t', t.patched f p = some t' → IsEdited f p t t') ∧
      (∀ g, ((t.patched f p).bind fun u => u.patched g p) = t.patched (g ∘ f) p) ∧
      (t.descendant p ≠ none → t.patched id p = some t) ∧
      ∀ g q, Apart p q → ((t.patched f p).bind fun u => u.patched g q) =
        (t.patched g q).bind fun u => u.patched f p := by
  refine ⟨patched_eq_none_iff, ?_, ?_, ?_, ?_⟩
  · intro t' h
    exact isEdited_of_patched h
  · intro g
    exact patched_bind_patched t f g p
  · intro h
    obtain ⟨n, hn⟩ := Option.ne_none_iff_exists'.mp h
    rw [patched_id, hn, Option.map_some]
  · intro g q hpq
    exact patched_bind_comm hpq t f g

/-- A schema with fields on two levels. -/
def nestedFields : Node :=
  .root "schema" [
    .group "person" .optional [.primitive "name" .byteArray .required,
      .primitive "age" .int32 .optional],
    .primitive "id" .int64 .required]

/-- A group around a node, an edit that makes places below the node move. -/
def wrapped (n : Node) : Node := .group "wrapper" .repeated [n]

theorem patched_isLawful_nestedFields :
    (nestedFields.descendant [0, 1] ≠ none ∧
      nestedFields.patched id [0, 1] = some nestedFields) ∧
    (∃ t', nestedFields.patched wrapped [0, 1] = some t' ∧
      IsEdited wrapped [0, 1] nestedFields t') ∧
    Apart [0, 1] [0, 0] ∧
      ((nestedFields.patched wrapped [0, 1]).bind fun u => u.patched (fun n => n.withChildren [n])
          [0, 0]) =
        (nestedFields.patched (fun n => n.withChildren [n]) [0, 0]).bind fun u =>
          u.patched wrapped [0, 1] := by
  have hnode : nestedFields.descendant [0, 1] ≠ none := nofun
  have hapart : Apart [0, 1] [0, 0] := by
    constructor
    · decide
    · decide
  obtain ⟨-, hedited, -, hid, hcomm⟩ := patched_isLawful nestedFields [0, 1] wrapped
  exact ⟨⟨hnode, hid hnode⟩, ⟨_, rfl, hedited _ rfl⟩, hapart, hcomm _ _ hapart⟩

end ParquetStruct.Node
