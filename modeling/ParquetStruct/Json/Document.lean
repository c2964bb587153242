/-
# ParquetStruct.Json.Document — tokens as a document.

Tokens are read from left to right, one at a time; the containers that are open at a place form its
`Context`.  Whatever the tokens are, a document comes out: where they stop making sense, the open
containers are closed as cut.
-/
import ParquetStruct.Json.Value

namespace ParquetStruct.Json

/-- One value, and whether the text ends after it. -/
structure Document where
  value : Value
  ended : Bool
  deriving Inhabited

/-- The containers that are open at the place of a value, innermost first, with what was read of
them, last first. -/
inductive Context where
  /-- The value is the document's own. -/
  | top
  | item (before : List Value) (outer : Context)
  | member (before : List (Option String × Value)) (key : Option String) (outer : Context)
  deriving Inhabited

/-- The value of a document that is cut right after the value `v`. -/
def Context.abandon (v : Value) : Context → Value
  | .top => v
  | .item before outer => outer.abandon (.array (.ofReversed before (.item v .cut)))
  | .member before key outer => outer.abandon (.object (.ofReversed before (.member key v .cut)))

/-- A document that is cut right after the value `v`. -/
def Document.cutAfter (v : Value) (ctx : Context) : Document :=
  ⟨ctx.abandon v, false⟩

namespace Document

mutual

/-- Reads tokens where a value is due; right after an opening bracket, the array may also end. -/
def atValue (ctx : Context) : List Token → Document
  | .null :: ts => afterValue .null ctx ts
  | .bool b :: ts => afterValue (.bool b) ctx ts
  | .number n :: ts => afterValue (.number n) ctx ts
  | .string s :: ts => afterValue (.string s) ctx ts
  | .openBracket :: ts => atValue (.item [] ctx) ts
  | .openBrace :: ts => atKey [] ctx ts
  | .closeBracket :: ts =>
    match ctx with
    -- No item was read yet, so no comma came before the bracket.
    | .item [] outer => afterValue (.array .close) outer ts
    | _ => cutAfter .cut ctx
  | _ => cutAfter .cut ctx

/-- Reads tokens where a key is due; right after an opening brace, the object may also end. -/
def atKey (before : List (Option String × Value)) (outer : Context) : List Token → Document
  | .string key :: ts => atColon before key outer ts
  | .closeBrace :: ts =>
    match before with
    | [] => afterValue (.object .close) outer ts
    | _ => cutAfter (.object (.ofReversed before .cut)) outer
  | _ => cutAfter (.object (.ofReversed before .cut)) outer

/-- Reads tokens after a key. -/
def atColon (before : List (Option String × Value)) (key : Option String) (outer : Context) :
    List Token → Document
  | .colon :: ts => atValue (.member before key outer) ts
  | _ => cutAfter .cut (.member before key outer)

/-- Reads tokens after the value `v`. -/
def afterValue (v : Value) (ctx : Context) : List Token → Document
  | [] =>
    match ctx with
    | .top => ⟨v, true⟩
    | _ => cutAfter v ctx
  | t :: ts =>
    match ctx, t with
    | .item before outer, .comma => atValue (.item (v :: before) outer) ts
    | .item before outer, .closeBracket =>
      afterValue (.array (.ofReversed (v :: before) .close)) outer ts
    | .member before key outer, .comma => atKey ((key, v) :: before) outer ts
    | .member before key outer, .closeBrace =>
      afterValue (.object (.ofReversed ((key, v) :: before) .close)) outer ts
    | _, _ => cutAfter v ctx

end

/-- The document that tokens spell. -/
def ofTokens (ts : List Token) : Document := atValue .top ts

/-- The document that a text spells. -/
def ofChars (cs : List Char) : Document := ofTokens (tokens cs)

end Document

end ParquetStruct.Json
