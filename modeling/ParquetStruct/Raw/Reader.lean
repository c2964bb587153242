/-
# ParquetStruct.Raw.Reader — schema trees from their raw form.

A value is worked through in the order of the text, and the first fault met is the answer.  A node
is an object of fields or an array of them; unknown keys are passed over together with their
values.  The containers that belong to the tree may be nested to a limit, and entering one beyond
it counts as malformed text.
-/
import ParquetStruct.Raw.Key
import ParquetStruct.Raw.Logical
import ParquetStruct.Schema.Node

namespace ParquetStruct.Raw

open ParquetStruct.Json

variable {α : Type}

/-- How many containers that belong to a tree may be open at one place. -/
def nestingLimit : Nat := 127

/-- The fields of a node that have been read; a field that was read may still be unset. -/
structure Fields where
  name : Option String := none
  physicalCode : Option (Option Int32) := none
  typeLength : Option (Option Int32) := none
  convertedType : Option (Option ConvertedType) := none
  logicalType : Option (Option LogicalType) := none
  repetitionType : Option (Option Repetition) := none
  children : Option (List Node) := none
  deriving Inhabited

namespace Fields

/-- Whether a field has been read. -/
def has (f : Fields) : Key → Bool
  | .name => f.name.isSome
  | .physicalType => f.physicalCode.isSome
  | .typeLength => f.typeLength.isSome
  | .convertedType => f.convertedType.isSome
  | .logicalType => f.logicalType.isSome
  | .repetitionType => f.repetitionType.isSome
  | .children => f.children.isSome

/-- Reads the value of a field. -/
def read (readChildren : Value → Except Fault (List Node)) (levels : Nat) (f : Fields) (v : Value) :
    Key → Except Fault Fields
  | .name => return { f with name := some (← readString v) }
  | .physicalType => return { f with physicalCode := some (← readOption readInt32 v) }
  | .typeLength => return { f with typeLength := some (← readOption readInt32 v) }
  | .convertedType => return { f with convertedType := some (← readOption (readConverted levels) v) }
  | .logicalType => return { f with logicalType := some (← readOption (readLogical levels) v) }
  | .repetitionType =>
    return { f with repetitionType := some (← readOption (readRepetition levels) v) }
  | .children => return { f with children := some (← readChildren v) }

/-- The node with the fields that were read, unless its name is missing. -/
def toNode? (f : Fields) : Option Node :=
  f.name.map fun name => {
    name
    physicalCode := f.physicalCode.getD none
    typeLength := f.typeLength.getD none
    convertedType := f.convertedType.getD none
    logicalType := f.logicalType.getD none
    repetitionType := f.repetitionType.getD none
    children := f.children.getD [] }

end Fields

/-- Reads the members of a node: each known key may occur once, which is found out at the key. -/
def readMembers (readChildren : Value → Except Fault (List Node)) (levels : Nat) (f : Fields) :
    Members → Except Fault Node
  | .close =>
    match f.toNode? with
    | some n => .ok n
    | none => .error (.mismatch (.missingField Key.name.text))
  | .member (some text) v rest =>
    match Key.ofText? text with
    | none => readMembers readChildren levels f rest
    | some key =>
      -- A key that occurs again is refused before its value is looked at.
      if f.has key then .error (.mismatch (.duplicateField key.text))
      else do readMembers readChildren levels (← f.read readChildren levels v key) rest
  | _ => .error .malformed

/-- Reads a node given as an array, where the fields still due are `keys`; fields at the end may be
left out, except for the name. -/
def readItems (readChildren : Value → Except Fault (List Node)) (levels : Nat) (f : Fields) :
    List Key → Items → Except Fault Node
  | _, .close =>
    match f.toNode? with
    | some n => .ok n
    | none => .error (.mismatch (.tooShort 0 .node Key.all.length))
  | key :: keys, .item v rest => do
    readItems readChildren levels (← f.read readChildren levels v key) keys rest
  | _, _ => .error .malformed

/-- Reads every item of an array. -/
def readAll (read : Value → Except Fault α) : Items → Except Fault (List α)
  | .close => .ok []
  | .item v rest => do
    let a ← read v
    let as ← readAll read rest
    return a :: as
  | .cut => .error .malformed

mutual

/-- Reads a node, with so many levels of nesting left. -/
def readNode : Nat → Value → Except Fault Node
  | 0, v =>
    match v with
    | .object _ | .array _ => .error .malformed
    | v => .error (unexpected v .node)
  | levels + 1, v =>
    match v with
    | .object members => readMembers (readNodes levels) levels {} members
    | .array items => readItems (readNodes levels) levels {} Key.all items
    | v => .error (unexpected v .node)

/-- Reads the children of a node, with so many levels of nesting left. -/
def readNodes : Nat → Value → Except Fault (List Node)
  | 0, v =>
    match v with
    | .array _ => .error .malformed
    | v => .error (unexpected v .nodes)
  | levels + 1, v =>
    match v with
    | .array items => readAll (readNode levels) items
    | v => .error (unexpected v .nodes)

end

/-- Reads a document: one node, and nothing after it. -/
def readDocument (d : Document) : Except Fault Node := do
  let n ← readNode nestingLimit d.value
  if d.ended then return n else throw .malformed

/-- Reads the raw form of a tree. -/
def read (text : String) : Except Fault Node :=
  readDocument (.ofChars text.toList)

end ParquetStruct.Raw
