/-
# ParquetStruct.Raw.Scalar — texts, numbers and members of enumerations in the raw form.

A member of an enumeration is given by its name, or as an object with that name as its only key;
the value under the key is `null` for members without parameters.
-/
import ParquetStruct.Json.Document
import ParquetStruct.Raw.Fault

namespace ParquetStruct.Raw

open ParquetStruct.Json

variable {α : Type}

/-! ## Single values -/

/-- What a value is found to be; `none` if it is malformed where a value is taken up. -/
def Found.ofValue? : Value → Option Found
  | .null => some .null
  | .bool b => some (.boolean b)
  | .number n =>
    match n.integer? with
    | some i => some (.integer i)
    | none => n.magnitude?.map (.double n.negative)
  | .string s => s.map .string
  | .array _ => some .array
  | .object _ => some .object
  | .cut => none

/-- The fault of a value that is not what is expected. -/
def unexpected (v : Value) (expected : Expected) : Fault :=
  match Found.ofValue? v with
  | some found => .mismatch (.wrongType found expected)
  | none => .malformed

/-- Reads a text. -/
def readString : Value → Except Fault String
  | .string (some s) => .ok s
  | v => .error (unexpected v .string)

/-- Reads a truth value. -/
def readBool : Value → Except Fault Bool
  | .bool b => .ok b
  | v => .error (unexpected v .boolean)

/-- Reads an integer between two bounds. -/
def readInteger (low high : Int) (expected : Expected) (v : Value) : Except Fault Int :=
  match Found.ofValue? v with
  | some (.integer n) =>
    if low ≤ n ∧ n ≤ high then .ok n else .error (.mismatch (.outOfRange n expected))
  | _ => .error (unexpected v expected)

/-- Reads a 32-bit integer. -/
def readInt32 (v : Value) : Except Fault Int32 :=
  (readInteger (-2147483648) 2147483647 .int32 v).map Int32.ofInt

/-- Reads an 8-bit integer. -/
def readInt8 (v : Value) : Except Fault Int8 :=
  (readInteger (-128) 127 .int8 v).map Int8.ofInt

/-- Reads the `null` that stands for a member of an enumeration without parameters. -/
def readNothing : Value → Except Fault Unit
  | .null => .ok ()
  | v => .error (unexpected v .nothing)

/-- Reads a value that may be `null`. -/
def readOption (read : Value → Except Fault α) : Value → Except Fault (Option α)
  | .null => .ok none
  | v => (read v).map some

/-! ## Members of enumerations -/

/-- Reads a member of an enumeration: a name alone is read by `bare`, the only key of an object and
its value by `applied`, with one level of nesting used up. -/
def readVariant (bare : String → Except Fault α) (applied : Nat → String → Value → Except Fault α)
    (levels : Nat) (v : Value) : Except Fault α :=
  match v, levels with
  | .string (some name), _ => bare name
  | .object (.member (some name) v rest), levels + 1 => do
    let a ← applied levels name v
    -- What follows the only member matters after the member itself.
    match rest with
    | .close => return a
    | _ => throw .malformed
  | _, _ => .error .malformed

/-- Looks a name up in an enumeration. -/
def lookUp (ofName? : String → Option α) (known : List String) (name : String) : Except Fault α :=
  match ofName? name with
  | some a => .ok a
  | none => .error (.mismatch (.unknownVariant name known))

/-- Reads a member of an enumeration without parameters. -/
def readName (ofName? : String → Option α) (known : List String) (levels : Nat) (v : Value) :
    Except Fault α :=
  readVariant (lookUp ofName? known)
    (fun _ name v => do
      let a ← lookUp ofName? known name
      readNothing v
      return a)
    levels v

/-- Reads a converted type. -/
def readConverted : Nat → Value → Except Fault ConvertedType :=
  readName ConvertedType.ofName? (ConvertedType.all.map ConvertedType.name)

/-- Reads a repetition. -/
def readRepetition : Nat → Value → Except Fault Repetition :=
  readName Repetition.ofName? (Repetition.all.map Repetition.name)

/-- Reads a time unit. -/
def readUnit : Nat → Value → Except Fault TimeUnit :=
  readName TimeUnit.ofName? (TimeUnit.all.map TimeUnit.name)

end ParquetStruct.Raw
