/-
# ParquetStruct.Proofs.Schema.Node — induction over schema trees, and the nodes in them.

A tree holds its children in a list, so the principle that comes with the type speaks of nodes and
of lists of nodes at once.  The one stated here speaks of nodes only, and gives a node the
hypothesis for each of its children.  The nodes of a tree are those that child indices lead to.
-/
import ParquetStruct.Schema.Node

namespace ParquetStruct.Node

/-- What a node inherits from its children holds of every node. -/
@[elab_as_elim]
theorem induction {P : Node → Prop} (step : ∀ n : Node, (∀ c ∈ n.children, P c) → P n) (n : Node) :
    P n :=
  @Node.rec P (fun cs => ∀ c ∈ cs, P c) (fun _ _ _ _ _ _ _ ih => step _ ih) (by simp)
    (fun _ _ hc hcs => List.forall_mem_cons.mpr ⟨hc, hcs⟩) n

/-! ## Nodes of a tree -/

/-- Child indices can be followed in two parts. -/
theorem descendant_append (n : Node) (is js : List Nat) :
    n.descendant (is ++ js) = (n.descendant is).bind fun c => c.descendant js := by
  induction is generalizing n with
  | nil => rfl
  | cons i is ih => simp only [List.cons_append, descendant_cons, Option.bind_assoc, ih]

/-- A node of a tree: the root, or one that child indices lead to. -/
def IsNodeOf (n root : Node) : Prop := ∃ is, root.descendant is = some n

theorem isNodeOf_self (root : Node) : root.IsNodeOf root := ⟨[], rfl⟩

theorem IsNodeOf.child {n c root : Node} (h : n.IsNodeOf root) (hc : c ∈ n.children) :
    c.IsNodeOf root := by
  obtain ⟨is, his⟩ := h
  obtain ⟨i, hi⟩ := List.mem_iff_getElem?.mp hc
  refine ⟨is ++ [i], ?_⟩
  rw [descendant_append, his, Option.bind_some, descendant_cons, hi]
  rfl

end ParquetStruct.Node
