/-
# ParquetStruct.Text.Quoted — a text in double quotes, for error messages.

Quotes and backslashes are escaped, four controls have letters of their own, and every other
character that would not be seen is written as its code point in lower-case hexadecimal digits.
-/
import ParquetStruct.Text.Unshown

namespace ParquetStruct.Text

/-- A character as quoted text spells it. -/
def quoteChar (c : Char) : List Char :=
  if c = '\x00' then ['\\', '0']
  else if c = '\t' then ['\\', 't']
  else if c = '\n' then ['\\', 'n']
  else if c = '\r' then ['\\', 'r']
  else if c = '"' ∨ c = '\\' then ['\\', c]
  else if isUnshown c then "\\u\x7b".toList ++ Nat.toDigits 16 c.toNat ++ ['\x7d']
  else [c]

/-- A text in double quotes. -/
def quoted (s : String) : String :=
  String.ofList ('"' :: s.toList.flatMap quoteChar ++ ['"'])

end ParquetStruct.Text
