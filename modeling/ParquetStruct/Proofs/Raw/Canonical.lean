/-
# ParquetStruct.Proofs.Raw.Canonical — texts written again after they were read.

One tree is denoted by many values: keys come in any order and may be unknown, nodes and parameters
may be arrays, members of enumerations may be objects, and what is unset may be `null` or an empty
list.  The raw form is one value among these, and no other is nested less deeply.  So a tree that
was read from some text can be read again from its raw form, and writing what was read leads to a
text that reading and writing no longer change.
-/
import ParquetStruct.Proofs.Raw.Recognition
import ParquetStruct.Proofs.Raw.Rendering

namespace ParquetStruct.Raw

open ParquetStruct.Json

/-! ## Nesting of what denotes a tree -/

/-- Whatever denotes a logical type is nested as deeply as its raw form, if not more. -/
theorem logicalNesting_le_of_denotes {levels : Nat} {v : Value} {l : LogicalType}
    (h : DenotesLogical levels v l) : logicalNesting l ≤ levels := by
  cases h with
  | plain hplain _ =>
    -- Only logical types with parameters are written as containers.
    have hzero : logicalNesting l = 0 := by
      cases l with
      | decimal | time | timestamp | integer => cases hplain
      | _ => rfl
    omega
  | parametric h =>
    have htwo : logicalNesting l = 2 := by
      cases h with
      | _ => rfl
    omega

theorem elim_logicalNesting_le_of_denotes {levels : Nat} {vs : List Value} {l : Option LogicalType}
    (h : DenotesOption (DenotesLogical levels) vs l) : l.elim 0 logicalNesting ≤ levels := by
  cases h with
  | absent => exact Nat.zero_le levels
  | null => exact Nat.zero_le levels
  | given h => exact logicalNesting_le_of_denotes h

/-- Every item denotes a node at the same level. -/
theorem exists_denotesNode_of_mem {levels : Nat} {items : Items} {cs : List Node} {c : Node}
    (h : DenotesItems levels items cs) (hc : c ∈ cs) : ∃ v, DenotesNode levels v c := by
  induction cs generalizing items with
  | nil => cases hc
  | cons d cs ih =>
    cases h with
    | cons hv hitems =>
      rcases List.mem_cons.mp hc with rfl | hc
      · exact ⟨_, hv⟩
      · exact ih hitems hc

theorem childrenNesting_le_of_denotes {levels : Nat} {vs : List Value} {cs : List Node}
    (ih : ∀ c ∈ cs, ∀ levels v, DenotesNode levels v c → nesting c ≤ levels)
    (h : DenotesChildren levels vs cs) : childrenNesting cs ≤ levels := by
  cases h with
  | absent => exact Nat.zero_le levels
  | array hitems =>
    -- The array itself takes up the level that its items do not have.
    refine childrenNesting_le fun c hc => ?_
    obtain ⟨w, hw⟩ := exists_denotesNode_of_mem hitems hc
    exact ih c hc _ w hw

/-- Whatever denotes a tree is nested as deeply as its raw form, if not more. -/
theorem nesting_le_of_denotes (n : Node) :
    ∀ levels v, DenotesNode levels v n → nesting n ≤ levels := by
  induction n using Node.induction with
  | step n ih =>
    intro levels v h
    cases h with
    | mk _ hfields hchildren =>
      rw [nesting_le_succ_iff]
      constructor
      · exact elim_logicalNesting_le_of_denotes hfields.logicalType
      · exact childrenNesting_le_of_denotes ih hchildren

/-! ## Reading what was read -/

/-- A tree that was read from a text has few enough levels of nesting to be read again. -/
theorem nesting_le_of_read {text : String} {n : Node} (h : read text = .ok n) :
    nesting n ≤ nestingLimit := by
  obtain ⟨n', hread, hended⟩ := bind_eq_ok_iff.mp h
  split at hended
  · cases hended
    have hdenotes := ((readNode_and_readNodes_eq_ok_iff nestingLimit).1 _ _).mp hread
    exact nesting_le_of_denotes n _ _ hdenotes
  · cases hended

/-- The raw form of the tree that a text spells, on one line or with a line for every field. -/
def normalize (isPretty : Bool) (text : String) : Except Fault String :=
  (read text).map fun n => if isPretty then pretty n else compact n

theorem read_of_normalize {text : String} {n : Node} (h : read text = .ok n) (isPretty : Bool) :
    read (if isPretty then pretty n else compact n) = .ok n := by
  have hraw : Format.raw.render isPretty 0 n = .ok (if isPretty then pretty n else compact n) := rfl
  rw [read_render_raw hraw, if_pos (nesting_le_of_read h)]

/-- A tree that was read from a text comes back from both of its raw forms.  So a text that was
normalized can be normalized again: in the same form it stays as it is, and in the other it becomes
what it would have become at once. -/
theorem read_compact_pretty_of_read {text : String} {n : Node} (h : read text = .ok n) :
    (read (compact n) = .ok n ∧ read (pretty n) = .ok n) ∧
      ∀ isPretty, ∃ normal, normalize isPretty text = .ok normal ∧
        normalize isPretty normal = .ok normal ∧
        ∀ isPretty', normalize isPretty' normal = normalize isPretty' text := by
  refine ⟨⟨read_of_normalize h false, read_of_normalize h true⟩, fun isPretty => ?_⟩
  have hagain : read (if isPretty then pretty n else compact n) = read text := by
    rw [read_of_normalize h, h]
  have hnormal : normalize isPretty text = .ok (if isPretty then pretty n else compact n) := by
    rw [normalize, h]
    rfl
  refine ⟨_, hnormal, ?_, fun isPretty' => ?_⟩
  · rw [normalize, hagain]
    exact hnormal
  · rw [normalize, hagain, normalize]

/-- A text with most of the freedom there is: nodes as arrays, members of enumerations and
parameters as objects and arrays, an unknown key, an explicit `null` and an empty list. -/
def freeText : String :=
  " [\"row\", null, null, \x7b\"LIST\": null\x7d, null, null, [\x7b\"skipped\": [[[]]],\n" ++
  "\"logical_type\": \x7b\"TIME\": [true, \x7b\"NANOS\": null\x7d]\x7d, \"children\": [],\n" ++
  "\"physical_type\": 2, \"type_length\": null, \"n\\u0061me\": \"t\"\x7d]] "

/-- The tree that the text above spells. -/
def freeTree : Node :=
  { name := "row", convertedType := some .list, children := [
    { name := "t", physicalCode := some 2, logicalType := some (.time true .nanos) }] }

theorem read_compact_pretty_freeText : read freeText = .ok freeTree ∧
    (read (compact freeTree) = .ok freeTree ∧ read (pretty freeTree) = .ok freeTree) ∧
      ∀ isPretty, ∃ normal, normalize isPretty freeText = .ok normal ∧
        normalize isPretty normal = .ok normal ∧
        ∀ isPretty', normalize isPretty' normal = normalize isPretty' freeText := by
  have h : read freeText = .ok freeTree := by decide +kernel
  exact ⟨h, read_compact_pretty_of_read h⟩

end ParquetStruct.Raw
