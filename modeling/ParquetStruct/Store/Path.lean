/-
# ParquetStruct.Store.Path — paths, and the places they can lead to.

A path is a list of steps from the root or from the working directory.  What matters besides is its
last step, which names the file to read or write, and whether a slash follows it.  A place is named
by a directory that is always there and the names that lead down from it; the directories above the
working directory are always there, but their own names are not known.
-/
import ParquetStruct.Store.Error

namespace ParquetStruct.Store

/-! ## Places -/

/-- A directory that is there whatever files there are. -/
inductive Anchor where
  | root
  /-- The directory so many levels above the working directory. -/
  | above (levels : Nat)
  deriving DecidableEq, Repr, Inhabited

/-- The directory above an anchor; the root is its own. -/
def Anchor.parent : Anchor → Anchor
  | .root => .root
  | .above levels => .above (levels + 1)

/-- A place in the file system, whether or not anything stands there. -/
structure Place where
  anchor : Anchor := .above 0
  /-- The names that lead down from the anchor. -/
  names : List String := []
  deriving DecidableEq, Repr, Inhabited

namespace Place

/-- The place one name further down. -/
def child (p : Place) (name : String) : Place := { p with names := p.names ++ [name] }

/-- The place one step further up. -/
def parent (p : Place) : Place :=
  if p.names.isEmpty then { p with anchor := p.anchor.parent }
  else { p with names := p.names.dropLast }

/-- Whether a place is another one or lies somewhere below it. -/
def isWithin (p outer : Place) : Bool :=
  p.anchor == outer.anchor && outer.names.isPrefixOf p.names

end Place

/-! ## Paths -/

/-- One step of a path. -/
inductive Step where
  | stay
  | up
  | down (name : String)
  deriving DecidableEq, Repr, Inhabited

/-- The step that a name between slashes stands for; an empty name is none. -/
def Step.ofName? (name : String) : Option Step :=
  if name = "" then none
  else if name = "." then some .stay
  else if name = ".." then some .up
  else some (.down name)

/-- Where a step leads to, whatever stands there. -/
def Step.apply (p : Place) : Step → Place
  | .stay => p
  | .up => p.parent
  | .down name => p.child name

/-- A path, taken apart. -/
structure Path where
  start : Place
  /-- The steps before the last one. -/
  leading : List Step
  last : Step
  /-- Whether a slash follows the last step. -/
  slash : Bool
  deriving DecidableEq, Repr, Inhabited

namespace Path

/-- Puts one character in front of names that are cut at slashes. -/
def consName (c : Char) (names : List (List Char)) : List (List Char) :=
  if c = '/' then [] :: names
  else
    match names with
    | [] => [[c]]
    | n :: ns => (c :: n) :: ns

/-- The names between the slashes of a text. -/
def cutNames (cs : List Char) : List (List Char) :=
  cs.foldr consName [[]]

/-- The steps of a path that is given as text. -/
def steps (cs : List Char) : List Step :=
  (cutNames cs).filterMap fun name => Step.ofName? (String.ofList name)

/-- Reads a path.  A path without any step stays where it starts. -/
def ofString (text : String) : Path :=
  let cs := text.toList
  let steps := steps cs
  { start := { anchor := if cs.head? == some '/' then .root else .above 0 }
    leading := steps.dropLast
    last := steps.getLast?.getD .stay
    slash := cs.getLast? == some '/' }

/-- The place that a path names, read step by step without regard to what stands there. -/
def place (p : Path) : Place :=
  p.last.apply (p.leading.foldl Step.apply p.start)

end Path

/-- The number of bytes from which on a path is too long. -/
def pathLimit : Nat := 4096

/-- The number of bytes beyond which a name in a path is too long. -/
def nameLimit : Nat := 255

end ParquetStruct.Store
