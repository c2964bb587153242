/-
# ParquetStruct.Schema.Path — where in a schema tree a field lies.

A path lists the names from the schema root down to a field.  It is only ever shown, inside error
messages, and measured, against the depth limit.
-/

namespace ParquetStruct

/-- The names from the root of a schema to one of its fields. -/
structure FieldPath where
  segments : List String := []
  deriving DecidableEq, Repr, Inhabited

namespace FieldPath

/-- The path of the root itself. -/
def root (name : String) : FieldPath := ⟨[name]⟩

/-- The path one step further down. -/
def child (p : FieldPath) (name : String) : FieldPath := ⟨p.segments ++ [name]⟩

/-- How many steps below the root the path ends; the path without names counts as the root. -/
def depth (p : FieldPath) : Nat := p.segments.length - 1

/-- The path as error messages show it: names joined by dots, in square brackets. -/
def display (p : FieldPath) : String :=
  "[" ++ ".".intercalate p.segments ++ "]"

@[simp] theorem segments_root (name : String) : (root name).segments = [name] := rfl

@[simp] theorem segments_child (p : FieldPath) (name : String) :
    (p.child name).segments = p.segments ++ [name] := rfl

@[simp] theorem depth_root (name : String) : (root name).depth = 0 := rfl

@[simp] theorem depth_child (p : FieldPath) (name : String) :
    (p.child name).depth = p.segments.length := by
  simp [depth]

end FieldPath

end ParquetStruct
