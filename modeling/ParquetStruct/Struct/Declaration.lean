/-
# ParquetStruct.Struct.Declaration — a schema tree as a Go type declaration.

The tree is walked from the root, fields in order, and the first fault met ends the walk.  Fields
that lie deeper below the root than a given limit are refused before anything else about them is
looked at, so the limit alone bounds the walk.
-/
import ParquetStruct.Struct.Column

namespace ParquetStruct.Struct

/-- How deep fields may lie below the root unless the caller says otherwise. -/
def defaultMaxDepth : Nat := 64

mutual

/-- The Go field of a node at a path. -/
def field (maxDepth : Nat) (path : FieldPath) : Node → Except SchemaError Field
  | n@⟨_, _, _, _, _, _, children⟩ => do
    -- The limit comes first: a field beyond it is refused whatever it holds.
    if maxDepth < path.depth then
      throw (.depthExceeded maxDepth path)
    match ← column? n path with
    | some c =>
      return .column (identifier n.name) n.repetition c.type (fieldTag n c.own c.members)
    | none =>
      return .group (identifier n.name) n.repetition (← fields maxDepth path children)
        (fieldTag n {} {})

/-- The Go fields of the children of a node, whose path is given. -/
def fields (maxDepth : Nat) (path : FieldPath) : List Node → Except SchemaError (List Field)
  | [] => return []
  | c :: cs => do
    let f ← field maxDepth (path.child (identifier c.name)) c
    let fs ← fields maxDepth path cs
    return f :: fs

end

/-- The Go type of the root of a schema: a struct, or the bare type of a root that is no struct. -/
def body (maxDepth : Nat) (root : Node) : Except SchemaError Body := do
  let path := FieldPath.root (identifier root.name)
  match ← column? root path with
  | some c => return .column c.type
  | none => return .struct (← fields maxDepth path root.children)

/-- The Go declaration of a schema, named after its root. -/
def declaration (maxDepth : Nat) (root : Node) : Except SchemaError Declaration := do
  return { name := identifier root.name, body := ← body maxDepth root }

end ParquetStruct.Struct
