/-
# ParquetStruct.Proofs.Raw.Annotation — numbers and annotations come back from their raw form.

Integers, converted types, repetitions and time units are single values and can be read at any
depth.  A logical type with parameters is written as an object in an object: it comes back if two
levels of nesting are left, and is malformed otherwise.
-/
import ParquetStruct.Proofs.Json.Number
import ParquetStruct.Proofs.Outcome
import ParquetStruct.Raw.Logical
import ParquetStruct.Raw.Writer

namespace ParquetStruct.Raw

open ParquetStruct.Json

/-! ## Single values -/

theorem ofValue?_ofInt {n : Int} (hlow : -(Literal.maxNegative : Int) ≤ n)
    (hhigh : n ≤ Literal.maxWord) : Found.ofValue? (ofInt n) = some (.integer n) := by
  rw [ofInt, Found.ofValue?, Literal.integer?_ofInt hlow hhigh]

theorem readInteger_ofInt {low high n : Int} (hlow : low ≤ n) (hhigh : n ≤ high)
    (hbounds : -(Literal.maxNegative : Int) ≤ low ∧ high ≤ Literal.maxWord) (expected : Expected) :
    readInteger low high expected (ofInt n) = .ok n := by
  rw [readInteger, ofValue?_ofInt (by omega) (by omega)]
  exact if_pos ⟨hlow, hhigh⟩

theorem readInt32_ofInt (n : Int32) : readInt32 (ofInt n.toInt) = .ok n := by
  have hlow : -2147483648 ≤ n.toInt := n.le_toInt
  have hhigh : n.toInt ≤ 2147483647 := n.toInt_le
  rw [readInt32, readInteger_ofInt hlow hhigh (by decide), Except.map, Int32.ofInt_toInt]

theorem readInt8_ofInt (n : Int8) : readInt8 (ofInt n.toInt) = .ok n := by
  have hlow : -128 ≤ n.toInt := n.le_toInt
  have hhigh : n.toInt ≤ 127 := n.toInt_le
  rw [readInt8, readInteger_ofInt hlow hhigh (by decide), Except.map, Int8.ofInt_toInt]

theorem readBool_bool (b : Bool) : readBool (.bool b) = .ok b := rfl

theorem readConverted_ofString (levels : Nat) (c : ConvertedType) :
    readConverted levels (ofString c.name) = .ok c := by
  show lookUp _ _ c.name = .ok c
  rw [lookUp, ConvertedType.ofName?_name]

theorem readRepetition_ofString (levels : Nat) (r : Repetition) :
    readRepetition levels (ofString r.name) = .ok r := by
  show lookUp _ _ r.name = .ok r
  rw [lookUp, Repetition.ofName?_name]

theorem readUnit_ofString (levels : Nat) (u : TimeUnit) :
    readUnit levels (ofString u.name) = .ok u := by
  show lookUp _ _ u.name = .ok u
  rw [lookUp, TimeUnit.ofName?_name]

/-- A value that is there is read as such, unless it is `null`. -/
theorem readOption_of_ne_null {α : Type} (read : Value → Except Fault α) {v : Value}
    (h : v ≠ .null) : readOption read v = (read v).map some := by
  unfold readOption
  split
  · exact absurd rfl h
  · rfl

theorem readOption_of_ok {α : Type} {read : Value → Except Fault α} {v : Value} {a : α}
    (h : v ≠ .null) (hread : read v = .ok a) : readOption read v = .ok (some a) := by
  rw [readOption_of_ne_null read h, hread]
  rfl

theorem ofInt_ne_null (n : Int) : ofInt n ≠ .null := Value.noConfusion

theorem ofString_ne_null (s : String) : ofString s ≠ .null := Value.noConfusion

theorem ofLogical_ne_null (l : LogicalType) : ofLogical l ≠ .null := by
  cases l <;> exact Value.noConfusion

/-! ## Logical types -/

/-- How many levels of nesting the raw form of a logical type takes up. -/
def logicalNesting : LogicalType → Nat
  | .decimal .. | .time .. | .timestamp .. | .integer .. => 2
  | _ => 0

theorem readPairMembers_pair {α β : Type} {first second : String} (hne : second ≠ first)
    {readFirst : Value → Except Fault α} {readSecond : Value → Except Fault β} {v w : Value} {a : α}
    {b : β} (hfirst : readFirst v = .ok a) (hsecond : readSecond w = .ok b) :
    readPairMembers first second readFirst readSecond none none
      (.ofList [(first, v), (second, w)]) = .ok (a, b) := by
  simp [Members.ofList, readPairMembers, hne, hfirst, hsecond]

theorem readParameters_zero (members : Members) (p : Parametric) :
    readParameters 0 (.object members) p = .error .malformed := by
  cases p <;> rfl

/-- A name with parameters is read two levels down. -/
theorem readLogical_withParameters {name : String} {p : Parametric} {l : LogicalType}
    {parameters : List (String × Value)} (hname : lookUpLogical name = .ok (.parametric p))
    (hread : ∀ levels, readParameters (levels + 1) (.object (.ofList parameters)) p = .ok l)
    (levels : Nat) :
    readLogical levels (withParameters name parameters) =
      if 2 ≤ levels then .ok l else .error .malformed := by
  -- One level is for the object around the name, the other for that of the parameters.
  cases levels with
  | zero => rfl
  | succ levels =>
    have hinner : readLogical (levels + 1) (withParameters name parameters) =
        readParameters levels (.object (.ofList parameters)) p := by
      unfold readLogical withParameters
      simp only [Members.ofList, readVariant, hname, ok_bind, pure_eq_ok]
      cases readParameters levels (.object (.ofList parameters)) p <;> rfl
    rw [hinner]
    cases levels with
    | zero => exact readParameters_zero _ p
    | succ levels => rw [hread, if_pos (Nat.le_add_left 2 levels)]

/-- A logical type comes back if there is room for its nesting. -/
theorem readLogical_ofLogical (levels : Nat) (l : LogicalType) :
    readLogical levels (ofLogical l) =
      if logicalNesting l ≤ levels then .ok l else .error .malformed := by
  cases l with
  | decimal scale precision =>
    refine readLogical_withParameters (p := .decimal) rfl (fun levels => ?_) levels
    rw [readParameters, readPair, readPairMembers_pair (by decide) (readInt32_ofInt scale)
      (readInt32_ofInt precision)]
    rfl
  | time utc unit =>
    refine readLogical_withParameters (p := .time) rfl (fun levels => ?_) levels
    rw [readParameters, readPair, readPairMembers_pair (by decide) (readBool_bool utc)
      (readUnit_ofString _ unit)]
    rfl
  | timestamp utc unit =>
    refine readLogical_withParameters (p := .timestamp) rfl (fun levels => ?_) levels
    rw [readParameters, readPair, readPairMembers_pair (by decide) (readBool_bool utc)
      (readUnit_ofString _ unit)]
    rfl
  | integer bitWidth signed =>
    refine readLogical_withParameters (p := .integer) rfl (fun levels => ?_) levels
    rw [readParameters, readPair, readPairMembers_pair (by decide) (readInt8_ofInt bitWidth)
      (readBool_bool signed)]
    rfl
  | _ => rfl

end ParquetStruct.Raw
