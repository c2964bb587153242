/-
# ParquetStruct.Struct.Layout — indented and compact layout of Go struct text.

`indent` lays compact text out as Go's formatter does: tabs for nesting, and aligned columns for
the names and types of consecutive fields.  A field that opens a nested struct joins the name
column of the fields before it and ends their section.  `compact` takes indentation and alignment
away again; from the first backquote of a line on, spaces belong to a tag and are kept.
-/
import ParquetStruct.Text.Line

namespace ParquetStruct.Struct

open Text

/-! ## Field lines -/

/-- A field line inside a struct, cut into its parts. -/
structure FieldLine where
  name : List Char
  type : List Char
  /-- The tag, empty if the line has none. -/
  tag : List Char := []
  /-- Whether the type is a struct that continues on the following lines. -/
  opensStruct : Bool := false
  deriving DecidableEq, Repr, Inhabited

/-- Cuts a text at the first space that a backquote follows: what comes before the space, given the
characters seen so far, last first, and what starts with the backquote. -/
def cutTag (seen : List Char) : List Char → List Char × List Char
  | [] => (seen.reverse, [])
  | ' ' :: '\x60' :: rest => (seen.reverse, '\x60' :: rest)
  | c :: rest => cutTag (c :: seen) rest

/-- Reads a trimmed line as a field.  Closing lines, lines without a space and lines outside every
struct are no fields. -/
def FieldLine.ofLine? (depth : Nat) (line : List Char) : Option FieldLine :=
  if depth = 0 || line.head? == some '\x7d' then none
  else
    match line.dropWhile (· != ' ') with
    | [] => none
    | _ :: rest =>
      let name := line.takeWhile (· != ' ')
      if rest.getLast? == some '\x7b' then
        some { name, type := rest, opensStruct := true }
      else
        let (type, tag) := cutTag [] rest
        some { name, type, tag }

/-! ## Indenting -/

/-- A line behind one tab for each open struct. -/
def indentLine (depth : Nat) (line : List Char) : List Char :=
  List.replicate depth '\t' ++ line

/-- The lines of a section of fields with their names and types aligned.  Widths are counted in
bytes, and filled up in characters. -/
def alignSection (depth : Nat) (fs : List FieldLine) : List (List Char) :=
  let nameWidth := (fs.map fun f => utf8Length f.name).foldl max 0
  let typeWidth :=
    ((fs.filter fun f => !f.opensStruct).map fun f => utf8Length f.type).foldl max 0
  fs.map fun f =>
    let line :=
      if f.tag.isEmpty then padTo nameWidth f.name ++ ' ' :: f.type
      else padTo nameWidth f.name ++ ' ' :: padTo typeWidth f.type ++ ' ' :: f.tag
    indentLine depth (trimEnd line)

/-- Lays out lines, given how many structs are open and which fields wait for the end of their
section. -/
def indentLines (depth : Nat) (waiting : List FieldLine) : List (List Char) → List (List Char)
  | [] => alignSection depth waiting
  | raw :: rest =>
    let line := trim raw
    match FieldLine.ofLine? depth line with
    | some f =>
      if f.opensStruct then
        -- The opening line is aligned with the fields before it, and the section ends with it.
        alignSection depth (waiting ++ [f]) ++ indentLines (depth + 1) [] rest
      else
        indentLines depth (waiting ++ [f]) rest
    | none =>
      -- A line may close one struct and open the next.
      let outer := if line.head? == some '\x7d' then depth - 1 else depth
      let inner := if line.getLast? == some '\x7b' then outer + 1 else outer
      alignSection depth waiting ++ indentLine outer line :: indentLines inner [] rest

/-- The indented layout of a text. -/
def indentChars (cs : List Char) : List Char :=
  dropFinalNewlines (unlines (indentLines 0 [] (lines cs)))

/-- The indented layout of a text. -/
def indent (text : String) : String :=
  String.ofList (indentChars text.toList)

/-! ## Compacting -/

/-- The two characters that layout is made of inside a line. -/
def isPadding (c : Char) : Bool :=
  c == ' ' || c == '\t'

/-- Puts one character in front of a squeezed text. -/
def consSqueezed (c : Char) (cs : List Char) : List Char :=
  if isPadding c then
    if cs.head? == some ' ' then cs else ' ' :: cs
  else c :: cs

/-- The text with every run of spaces and tabs as one space. -/
def squeeze (cs : List Char) : List Char :=
  cs.foldr consSqueezed []

/-- The compact layout of one line. -/
def compactLine (line : List Char) : List Char :=
  let line := trimWhere isPadding line
  -- Without a backquote the second part is empty.
  squeeze (line.takeWhile (· != '\x60')) ++ line.dropWhile (· != '\x60')

/-- The compact layout of a text. -/
def compactChars (cs : List Char) : List Char :=
  dropFinalNewlines (['\n'].intercalate ((lines cs).map compactLine))

/-- The compact layout of a text. -/
def compact (text : String) : String :=
  String.ofList (compactChars text.toList)

end ParquetStruct.Struct
