/-
# ParquetStruct.Json.Value — JSON values, as far as a text spells them.

A text may break off, or go wrong, anywhere inside a value.  What was spelled before that place is
still a value here, with the open containers and the missing part marked as cut, so that a reader
who works through a value in the order of the text meets the fault exactly where the text has it.
A whole value has no cut anywhere.
-/
import ParquetStruct.Json.Token

namespace ParquetStruct.Json

mutual

/-- A JSON value. -/
inductive Value where
  | null
  | bool (b : Bool)
  | number (n : Literal)
  /-- A string, without text if its literal holds half a surrogate pair. -/
  | string (s : Option String)
  | array (items : Items)
  | object (members : Members)
  /-- No value could be read here, and nothing after it. -/
  | cut

/-- The items of an array. -/
inductive Items where
  | close
  | item (v : Value) (rest : Items)
  /-- The array was not read to its end. -/
  | cut

/-- The members of an object. -/
inductive Members where
  | close
  | member (key : Option String) (v : Value) (rest : Members)
  /-- The object was not read to its end. -/
  | cut

end

instance : Inhabited Value := ⟨.cut⟩
instance : Inhabited Items := ⟨.cut⟩
instance : Inhabited Members := ⟨.cut⟩

/-! ## Containers from lists -/

/-- Items in front of others, last first. -/
def Items.ofReversed (before : List Value) (rest : Items) : Items :=
  before.foldl (fun rest v => .item v rest) rest

/-- Members in front of others, last first. -/
def Members.ofReversed (before : List (Option String × Value)) (rest : Members) : Members :=
  before.foldl (fun rest m => .member m.1 m.2 rest) rest

/-- The members of a whole object. -/
def Members.ofList : List (String × Value) → Members
  | [] => .close
  | (key, v) :: ms => .member (some key) v (ofList ms)

@[simp] theorem Items.ofReversed_nil (rest : Items) : ofReversed [] rest = rest := rfl

@[simp] theorem Items.ofReversed_cons (v : Value) (before : List Value) (rest : Items) :
    ofReversed (v :: before) rest = ofReversed before (.item v rest) := rfl

@[simp] theorem Members.ofReversed_nil (rest : Members) : ofReversed [] rest = rest := rfl

@[simp] theorem Members.ofReversed_cons (m : Option String × Value)
    (before : List (Option String × Value)) (rest : Members) :
    ofReversed (m :: before) rest = ofReversed before (.member m.1 m.2 rest) := rfl

/-! ## Tokens -/

mutual

/-- The tokens that spell a value; a cut is spelled as a stray token. -/
def Value.tokens : Value → List Token
  | .null => [.null]
  | .bool b => [.bool b]
  | .number n => [.number n]
  | .string s => [.string s]
  | .array items => .openBracket :: items.tokens []
  | .object members => .openBrace :: members.tokens []
  | .cut => [.stray]

/-- The tokens that spell items, up to the closing bracket; `separator` comes before the first. -/
def Items.tokens (separator : List Token) : Items → List Token
  | .close => [.closeBracket]
  | .item v rest => separator ++ v.tokens ++ rest.tokens [.comma]
  | .cut => [.stray]

/-- The tokens that spell members, up to the closing brace; `separator` comes before the first. -/
def Members.tokens (separator : List Token) : Members → List Token
  | .close => [.closeBrace]
  | .member key v rest => separator ++ .string key :: .colon :: v.tokens ++ rest.tokens [.comma]
  | .cut => [.stray]

end

/-! ## Text -/

/-- The text of tokens with nothing between them. -/
def compactChars (ts : List Token) : List Char :=
  ts.flatMap Token.chars

/-- A new line, indented by two spaces for each open container. -/
def newline (depth : Nat) : List Char :=
  '\n' :: List.replicate (2 * depth) ' '

/-- The text of tokens with every item and member on a line of its own; `depth` containers are
open.  The tokens are to hold no empty container. -/
def prettyChars (depth : Nat) : List Token → List Char
  | [] => []
  | t :: ts =>
    match t with
    | .openBrace | .openBracket => t.chars ++ newline (depth + 1) ++ prettyChars (depth + 1) ts
    | .closeBrace | .closeBracket => newline (depth - 1) ++ t.chars ++ prettyChars (depth - 1) ts
    | .comma => t.chars ++ newline depth ++ prettyChars depth ts
    | .colon => t.chars ++ ' ' :: prettyChars depth ts
    | t => t.chars ++ prettyChars depth ts

end ParquetStruct.Json
