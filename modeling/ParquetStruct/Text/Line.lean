/-
# ParquetStruct.Text.Line — a text as lines.

A line ends at a newline, and a carriage return right before that newline belongs to the line end.
A text that ends in a newline has no further, empty line after it; a carriage return at the very
end of a text is an ordinary character.
-/
import ParquetStruct.Text.Blank

namespace ParquetStruct.Text

/-! ## Cutting a text into lines -/

/-- Puts one character in front of the first piece of a text that is cut after each newline. -/
def consPiece (c : Char) (pieces : List (List Char)) : List (List Char) :=
  if c = '\n' then ['\n'] :: pieces
  else
    match pieces with
    | [] => [[c]]
    | p :: ps => (c :: p) :: ps

/-- The text cut after each newline. -/
def pieces (cs : List Char) : List (List Char) :=
  cs.foldr consPiece []

/-- A piece without its line end. -/
def chomp (piece : List Char) : List Char :=
  match piece.reverse with
  | '\n' :: '\r' :: cs => cs.reverse
  | '\n' :: cs => cs.reverse
  | _ => piece

/-- The lines of a text, without their line ends. -/
def lines (cs : List Char) : List (List Char) :=
  (pieces cs).map chomp

theorem flatten_consPiece (c : Char) (ps : List (List Char)) :
    (consPiece c ps).flatten = c :: ps.flatten := by
  unfold consPiece
  split
  · rename_i h
    simp [h]
  · cases ps <;> rfl

/-- Cutting a text into pieces loses nothing. -/
@[simp] theorem flatten_pieces (cs : List Char) : (pieces cs).flatten = cs := by
  induction cs with
  | nil => rfl
  | cons c cs ih =>
    rw [show pieces (c :: cs) = consPiece c (pieces cs) from rfl, flatten_consPiece, ih]

/-! ## Putting lines together -/

/-- The text without the newlines at its end. -/
def dropFinalNewlines (cs : List Char) : List Char :=
  trimEndWhere (· == '\n') cs

/-- The lines as a text, each with a newline after it. -/
def unlines (ls : List (List Char)) : List Char :=
  ls.flatMap fun l => l ++ ['\n']

@[simp] theorem unlines_nil : unlines [] = [] := rfl

@[simp] theorem unlines_cons (l : List Char) (ls : List (List Char)) :
    unlines (l :: ls) = l ++ '\n' :: unlines ls := by
  simp [unlines]

@[simp] theorem unlines_append (ls ms : List (List Char)) :
    unlines (ls ++ ms) = unlines ls ++ unlines ms := by
  simp [unlines]

/-! ## Width -/

/-- The number of bytes of a text in UTF-8. -/
def utf8Length (cs : List Char) : Nat :=
  cs.foldr (fun c n => c.utf8Size + n) 0

@[simp] theorem utf8Length_nil : utf8Length [] = 0 := rfl

@[simp] theorem utf8Length_cons (c : Char) (cs : List Char) :
    utf8Length (c :: cs) = c.utf8Size + utf8Length cs := rfl

/-- The text filled up with spaces to a number of characters. -/
def padTo (width : Nat) (cs : List Char) : List Char :=
  cs ++ List.replicate (width - cs.length) ' '

@[simp] theorem length_padTo (width : Nat) (cs : List Char) :
    (padTo width cs).length = max width cs.length := by
  simp [padTo]; omega

end ParquetStruct.Text
