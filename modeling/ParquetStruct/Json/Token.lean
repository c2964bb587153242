/-
# ParquetStruct.Json.Token — JSON text as tokens.

Tokens do not depend on where in a document they stand, so a text is cut into tokens once, before
anything is known about its structure.  Characters that begin no token become the token `stray`,
and nothing after them is looked at.
-/
import ParquetStruct.Json.Number
import ParquetStruct.Json.Quoted

namespace ParquetStruct.Json

/-- A token of JSON text. -/
inductive Token where
  | openBrace
  | closeBrace
  | openBracket
  | closeBracket
  | colon
  | comma
  | null
  | bool (b : Bool)
  | number (n : Literal)
  /-- A string literal, without text if it holds half a surrogate pair. -/
  | string (s : Option String)
  /-- Characters that begin no token. -/
  | stray
  deriving DecidableEq, Repr, Inhabited

namespace Token

/-- The text of a token; half a surrogate pair is spelled as an escape. -/
def chars : Token → List Char
  | .openBrace => ['\x7b']
  | .closeBrace => ['\x7d']
  | .openBracket => ['[']
  | .closeBracket => [']']
  | .colon => [':']
  | .comma => [',']
  | .null => "null".toList
  | .bool true => "true".toList
  | .bool false => "false".toList
  | .number n => n.chars
  | .string (some s) => quote s.toList
  | .string none => "\"\\ud800\"".toList
  | .stray => []

/-! ## Scanning -/

/-- Whether a character may stand between tokens. -/
def isSpace (c : Char) : Bool :=
  c == ' ' || c == '\t' || c == '\n' || c == '\r'

/-- Scans the token that a text starts with, and gives the rest of the text. -/
def scan : List Char → Option (Token × List Char)
  | '\x7b' :: rest => some (.openBrace, rest)
  | '\x7d' :: rest => some (.closeBrace, rest)
  | '[' :: rest => some (.openBracket, rest)
  | ']' :: rest => some (.closeBracket, rest)
  | ':' :: rest => some (.colon, rest)
  | ',' :: rest => some (.comma, rest)
  | 'n' :: 'u' :: 'l' :: 'l' :: rest => some (.null, rest)
  | 't' :: 'r' :: 'u' :: 'e' :: rest => some (.bool true, rest)
  | 'f' :: 'a' :: 'l' :: 's' :: 'e' :: rest => some (.bool false, rest)
  | '"' :: rest => (scanQuoted rest).map fun (s, rest) => (.string s, rest)
  | cs => (Literal.scan cs).map fun (n, rest) => (.number n, rest)

/-- A token takes up at least one character. -/
theorem length_lt_of_scan {t : Token} {cs rest : List Char}
    (h : scan cs = some (t, rest)) : rest.length < cs.length := by
  unfold scan at h
  split at h
  case h_10 tail =>
    obtain ⟨⟨s, rest'⟩, hs, he⟩ := Option.map_eq_some_iff.mp h
    cases he
    exact Nat.lt_succ_of_lt (length_lt_of_scanQuoted hs)
  case h_11 =>
    obtain ⟨⟨n, rest'⟩, hn, he⟩ := Option.map_eq_some_iff.mp h
    cases he
    exact Literal.length_lt_of_scan hn
  all_goals
    cases h
    simp only [List.length_cons]
    omega

end Token

/-! ## The tokens of a text -/

/-- The tokens of a text, up to and including the first stray one. -/
def tokens (cs : List Char) : List Token :=
  let cs' := cs.dropWhile Token.isSpace
  if cs'.isEmpty then []
  else
    match _h : Token.scan cs' with
    | none => [.stray]
    | some (t, rest) => t :: tokens rest
termination_by cs.length
decreasing_by
  exact Nat.lt_of_lt_of_le (Token.length_lt_of_scan _h)
    (List.dropWhile_suffix Token.isSpace).length_le

end ParquetStruct.Json
