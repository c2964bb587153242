/-
# ParquetStruct.Raw.Logical — logical types and their parameters in the raw form.

Every logical type that has parameters has two of them, given as an object or as an array.
-/
import ParquetStruct.Raw.Scalar

namespace ParquetStruct.Raw

open ParquetStruct.Json

variable {α β : Type}

/-! ## Parameters -/

/-- The parameters of an object, of which each may occur once; keys other than the two are passed
over. -/
def readPairMembers (first second : String) (readFirst : Value → Except Fault α)
    (readSecond : Value → Except Fault β) (a : Option α) (b : Option β) :
    Members → Except Fault (α × β)
  | .close =>
    match a, b with
    | some a, some b => .ok (a, b)
    | none, _ => .error (.mismatch (.missingField first))
    | _, none => .error (.mismatch (.missingField second))
  | .member (some key) v rest =>
    if key = first then
      if a.isSome then .error (.mismatch (.duplicateField first))
      else do readPairMembers first second readFirst readSecond (some (← readFirst v)) b rest
    else if key = second then
      if b.isSome then .error (.mismatch (.duplicateField second))
      else do readPairMembers first second readFirst readSecond a (some (← readSecond v)) rest
    else readPairMembers first second readFirst readSecond a b rest
  | _ => .error .malformed

/-- The parameters of an array, first and second. -/
def readPairItems (expected : Expected) (readFirst : Value → Except Fault α)
    (readSecond : Value → Except Fault β) : Items → Except Fault (α × β)
  | .item v rest => do
    -- A fault of the first parameter comes before a missing second one.
    let a ← readFirst v
    match rest with
    | .item w rest =>
      let b ← readSecond w
      match rest with
      | .close => return (a, b)
      | _ => throw .malformed
    | .close => throw (.mismatch (.tooShort 1 expected 2))
    | .cut => throw .malformed
  | .close => .error (.mismatch (.tooShort 0 expected 2))
  | .cut => .error .malformed

/-- Reads the two parameters of a logical type, an object or an array. -/
def readPair (of : Parametric) (first second : String)
    (readFirst : Nat → Value → Except Fault α) (readSecond : Nat → Value → Except Fault β)
    (levels : Nat) (v : Value) : Except Fault (α × β) :=
  match v, levels with
  | .object members, levels + 1 =>
    readPairMembers first second (readFirst levels) (readSecond levels) none none members
  | .array items, levels + 1 =>
    readPairItems (.parameters of) (readFirst levels) (readSecond levels) items
  | .object _, 0 | .array _, 0 => .error .malformed
  | v, _ => .error (unexpected v (.parameters of))

/-- Reads the parameters of a logical type. -/
def readParameters (levels : Nat) (v : Value) : Parametric → Except Fault LogicalType
  | .decimal => do
    let (scale, precision) ←
      readPair .decimal "scale" "precision" (fun _ => readInt32) (fun _ => readInt32) levels v
    return .decimal scale precision
  | .time => do
    let (utc, unit) ← readPair .time "utc" "unit" (fun _ => readBool) readUnit levels v
    return .time utc unit
  | .timestamp => do
    let (utc, unit) ← readPair .timestamp "utc" "unit" (fun _ => readBool) readUnit levels v
    return .timestamp utc unit
  | .integer => do
    let (bitWidth, signed) ←
      readPair .integer "bit_width" "signed" (fun _ => readInt8) (fun _ => readBool) levels v
    return .integer bitWidth signed

/-! ## Logical types -/

/-- A logical type without parameters, or the need for some. -/
inductive LogicalName where
  | plain (l : LogicalType)
  | parametric (p : Parametric)
  deriving DecidableEq, Repr, Inhabited

/-- The names of the logical types, in the order in which names are listed to a reader. -/
def logicalNames : List (String × LogicalName) := [
  ("STRING", .plain .string),
  ("MAP", .plain .map),
  ("LIST", .plain .list),
  ("ENUM", .plain .enum),
  ("DECIMAL", .parametric .decimal),
  ("DATE", .plain .date),
  ("TIME", .parametric .time),
  ("TIMESTAMP", .parametric .timestamp),
  ("INTEGER", .parametric .integer),
  ("UNKNOWN", .plain .unknown),
  ("JSON", .plain .json),
  ("BSON", .plain .bson),
  ("UUID", .plain .uuid),
  ("FLOAT16", .plain .float16)]

/-- Looks up the name of a logical type. -/
def lookUpLogical : String → Except Fault LogicalName :=
  lookUp (fun name => logicalNames.lookup name) (logicalNames.map Prod.fst)

/-- Reads a logical type. -/
def readLogical : Nat → Value → Except Fault LogicalType :=
  readVariant
    (fun name => do
      match ← lookUpLogical name with
      | .plain l => return l
      | .parametric _ => throw (.mismatch (.wrongType .bareName .someParameters)))
    (fun levels name v => do
      match ← lookUpLogical name with
      | .plain l => do
        readNothing v
        return l
      | .parametric p => readParameters levels v p)

end ParquetStruct.Raw
