/-
# ParquetStruct.Schema.Node — schema trees.

A node is a leaf with a physical type or a group with children, and carries the annotations that
decide how it is read.  The physical type is kept as its raw Thrift code, so that a tree with a
code outside the enumeration can be held, written and refused where it is classified.  The file
gives the type, decidable equality, the constructors for the shapes Parquet prescribes, and the
descendants of a node by child indices together with editing one of them.
-/
import ParquetStruct.Schema.Annotation

namespace ParquetStruct

/-- One field or group of a Parquet schema tree. -/
structure Node where
  name : String
  physicalCode : Option Int32 := none
  typeLength : Option Int32 := none
  convertedType : Option ConvertedType := none
  logicalType : Option LogicalType := none
  repetitionType : Option Repetition := none
  children : List Node := []
  deriving Inhabited, Repr

namespace Node

/-! ## Equality -/

mutual

/-- Equality of nodes is decided field by field. -/
def decEq : (a b : Node) → Decidable (a = b)
  | ⟨n, p, t, c, l, r, cs⟩, ⟨n', p', t', c', l', r', cs'⟩ =>
    match decEqList cs cs' with
    | isTrue hcs =>
      if h : n = n' ∧ p = p' ∧ t = t' ∧ c = c' ∧ l = l' ∧ r = r' then
        isTrue (by obtain ⟨rfl, rfl, rfl, rfl, rfl, rfl⟩ := h; rw [hcs])
      else
        isFalse (by rintro ⟨⟩; exact h ⟨rfl, rfl, rfl, rfl, rfl, rfl⟩)
    | isFalse hcs => isFalse (by rintro ⟨⟩; exact hcs rfl)

/-- Equality of lists of nodes is decided node by node. -/
def decEqList : (as bs : List Node) → Decidable (as = bs)
  | [], [] => isTrue rfl
  | [], _ :: _ => isFalse nofun
  | _ :: _, [] => isFalse nofun
  | a :: as, b :: bs =>
    match decEq a b, decEqList as bs with
    | isTrue h, isTrue hs => isTrue (by rw [h, hs])
    | isFalse h, _ => isFalse (by rintro ⟨⟩; exact h rfl)
    | _, isFalse hs => isFalse (by rintro ⟨⟩; exact hs rfl)

end

instance : DecidableEq Node := decEq

/-! ## Constructors -/

/-- A leaf of a known physical type. -/
def primitive (name : String) (physical : PhysicalType) (repetition : Repetition) : Node :=
  { name, physicalCode := some physical.code, repetitionType := some repetition }

/-- A group of fields. -/
def group (name : String) (repetition : Repetition) (children : List Node) : Node :=
  { name, repetitionType := some repetition, children }

/-- The root group of a schema; roots carry no repetition. -/
def root (name : String) (children : List Node) : Node :=
  { name, children }

/-- A list in the three-level form: a LIST group with one repeated group `list` that holds the
element. -/
def list (name : String) (repetition : Repetition) (element : Node) : Node :=
  { group name repetition [group "list" .repeated [element]] with
    convertedType := some .list, logicalType := some .list }

/-- A map: a MAP group with one repeated group `key_value` that holds the key and the value. -/
def map (name : String) (repetition : Repetition) (key value : Node) : Node :=
  { group name repetition [group "key_value" .repeated [key, value]] with
    convertedType := some .map, logicalType := some .map }

/-! ## Replacing one field -/

/-- The node with another physical code, or with none. -/
def withPhysicalCode (n : Node) (code : Option Int32) : Node :=
  { n with physicalCode := code }

/-- The node with another type length. -/
def withTypeLength (n : Node) (length : Int32) : Node :=
  { n with typeLength := some length }

/-- The node with another converted type. -/
def withConvertedType (n : Node) (converted : ConvertedType) : Node :=
  { n with convertedType := some converted }

/-- The node with another logical type. -/
def withLogicalType (n : Node) (logical : LogicalType) : Node :=
  { n with logicalType := some logical }

/-- The node with another repetition, or with none. -/
def withRepetition (n : Node) (repetition : Option Repetition) : Node :=
  { n with repetitionType := repetition }

/-- The node with other children. -/
def withChildren (n : Node) (children : List Node) : Node :=
  { n with children }

/-! ## Repetition -/

/-- The repetition of a node; an absent one is read as required. -/
def repetition (n : Node) : Repetition :=
  n.repetitionType.getD .required

/-- Whether the node is optional. -/
def isOptional (n : Node) : Bool :=
  n.repetition == .optional

/-- Whether the node is repeated. -/
def isRepeated (n : Node) : Bool :=
  n.repetition == .repeated

/-! ## Descendants -/

/-- The node reached by following child indices. -/
def descendant (n : Node) : List Nat → Option Node
  | [] => some n
  | i :: is => n.children[i]?.bind fun c => c.descendant is

/-- The tree with the node at the given indices edited by `f`; `none` if the indices address no
node. -/
def patched (n : Node) (f : Node → Node) : List Nat → Option Node
  | [] => some (f n)
  | i :: is =>
    n.children[i]?.bind fun c =>
      (c.patched f is).map fun c' => { n with children := n.children.set i c' }

@[simp] theorem descendant_nil (n : Node) : n.descendant [] = some n := rfl

@[simp] theorem descendant_cons (n : Node) (i : Nat) (is : List Nat) :
    n.descendant (i :: is) = n.children[i]?.bind fun c => c.descendant is := rfl

@[simp] theorem patched_nil (n : Node) (f : Node → Node) : n.patched f [] = some (f n) := rfl

@[simp] theorem patched_cons (n : Node) (f : Node → Node) (i : Nat) (is : List Nat) :
    n.patched f (i :: is) =
      n.children[i]?.bind fun c =>
        (c.patched f is).map fun c' => { n with children := n.children.set i c' } := rfl

end Node

end ParquetStruct
