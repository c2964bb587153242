/-
# ParquetStruct.Proofs.Raw.Unique — a raw form is the raw form of one tree only.

Reading a raw form cannot tell apart the trees beyond the nesting limit, since it refuses them all.
But the limit is the reader's and not the form's: read with as much room as two trees need, the raw
form gives both back, so trees with one raw form are one tree, however deeply they are nested.  The
two layouts of the form differ in white space outside string literals and in nothing else.
-/
import ParquetStruct.Proofs.Json.Space
import ParquetStruct.Proofs.Raw.RoundTrip

namespace ParquetStruct.Raw

open ParquetStruct.Json

variable {n m : Node}

/-- Trees of one raw form are one tree. -/
theorem ofNode_injective (h : ofNode n = ofNode m) : n = m := by
  -- So many levels leave room for both.
  have hn := readNode_ofNode n (max (nesting n) (nesting m))
  have hm := readNode_ofNode m (max (nesting n) (nesting m))
  rw [if_pos (Nat.le_max_left _ _)] at hn
  rw [if_pos (Nat.le_max_right _ _), ← h] at hm
  exact Except.ok.inj (hn.symm.trans hm)

/-- A text on one line is a document of the raw form of one tree. -/
theorem compact_injective (h : compact n = compact m) : n = m := by
  apply ofNode_injective
  have hchars : compactChars (tokens n) = compactChars (tokens m) := String.ofList_injective h
  have hn := (ofChars_tokens (isPlainValue_ofNode n) 0).1
  have hm := (ofChars_tokens (isPlainValue_ofNode m) 0).1
  rw [← tokens, hchars] at hn
  exact (Document.mk.inj (hn.symm.trans hm)).1

/-- The text with a line for every field, without the space outside string literals, is the text on
one line. -/
theorem dropSpace_pretty (n : Node) :
    String.ofList (dropSpace .outside (pretty n).toList) = compact n := by
  rw [pretty, String.toList_ofList, tokens, dropSpace_prettyChars (isPlainValue_ofNode n) 0]
  rfl

/-- The raw form is faithful, however deeply a tree is nested.  The text with a line for every field
loses nothing but white space on the way to the text on one line, and either text stands for one tree
only. -/
theorem dropSpace_pretty_and_unique (n m : Node) :
    String.ofList (dropSpace .outside (pretty n).toList) = compact n ∧
      (compact n = compact m ↔ n = m) ∧ (pretty n = pretty m ↔ n = m) := by
  refine ⟨dropSpace_pretty n, ?_, ?_⟩
  · constructor
    · exact compact_injective
    · exact congrArg compact
  · constructor
    · intro h
      apply compact_injective
      rw [← dropSpace_pretty, ← dropSpace_pretty, h]
    · exact congrArg pretty

end ParquetStruct.Raw
