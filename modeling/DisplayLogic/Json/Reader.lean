import DisplayLogic.Json.Basic
import DisplayLogic.Json.Numeral
import DisplayLogic.Json.Quoted

/-!
# Reading JSON

A document is read in two passes. The first cuts the text into `JsonToken`s, the second takes the
tokens one by one through the states of a `JsonState`, which keeps the arrays and objects that are
still open as a stack of frames. The document is complete when a value is complete and nothing is
open. At most `maxDepth` arrays and objects may be open at once.

Only strict JSON is accepted. Why a text is refused is not recorded.
-/

namespace DisplayLogic

/-- A token of a JSON document. -/
inductive JsonToken where
  | openArray
  | closeArray
  | openObject
  | closeObject
  | comma
  | colon
  | null
  | boolean (value : Bool)
  | number (value : Number)
  | text (value : String)
deriving DecidableEq, Inhabited

namespace JsonToken

def isBlank (c : Char) : Bool := c == ' ' || c == '\n' || c == '\t' || c == '\r'

def spellings : List (List Char × JsonToken) := [
  (['['], openArray),
  ([']'], closeArray),
  (['\x7b'], openObject),
  (['\x7d'], closeObject),
  ([','], comma),
  ([':'], colon),
  (['n', 'u', 'l', 'l'], null),
  (['t', 'r', 'u', 'e'], boolean true),
  (['f', 'a', 'l', 's', 'e'], boolean false)]

/-- The token that a text begins with and how many characters it takes. -/
def front? (cs : List Char) : Option (JsonToken × Nat) :=
  match spellings.find? fun s => s.1.isPrefixOf cs with
  | some (spelling, token) => some (token, spelling.length)
  | none =>
    match cs with
    | '"' :: rest => do
      let (content, taken) ← JsonText.content? rest
      return (text (.ofList content), taken + 1)
    | cs => do
      let run := cs.takeWhile JsonNumeral.isNumeralChar
      let numeral ← JsonNumeral.ofChars? run
      return (number (← numeral.value?), run.length)

/-- The tokens of a text of which the next `passing` characters belong to the last token. -/
def ofCharsFrom? (passing : Nat) : List Char → Option (List JsonToken)
  | [] => some []
  | c :: rest =>
    match passing with
    | passing + 1 => ofCharsFrom? passing rest
    | 0 =>
      if isBlank c then ofCharsFrom? 0 rest
      else do
        let (token, length) ← front? (c :: rest)
        let others ← ofCharsFrom? (length - 1) rest
        return token :: others

def ofChars? (cs : List Char) : Option (List JsonToken) := ofCharsFrom? 0 cs

def scalar? : JsonToken → Option Json
  | null => some .null
  | boolean b => some (.boolean b)
  | number n => some (.number n)
  | text s => some (.text s)
  | _ => none

end JsonToken

/-- An array or object that is still open, with what it holds so far, the latest first. -/
inductive JsonFrame where
  | array (items : List Json)
  | object (members : List (String × Json)) (name : String)
deriving Inhabited

/-- What may come next. -/
inductive JsonState where
  | value (frames : List JsonFrame)
  /-- The first value of an array, or its end. -/
  | firstItem (outer : List JsonFrame)
  /-- The first name of an object, or its end. -/
  | firstName (outer : List JsonFrame)
  | name (members : List (String × Json)) (outer : List JsonFrame)
  | colon (members : List (String × Json)) (name : String) (outer : List JsonFrame)
  | complete (value : Json) (frames : List JsonFrame)
deriving Inhabited

namespace JsonState

/-- How many arrays and objects may be open at once. -/
def maxDepth : Nat := 127

def start : JsonState := value []

def begin? (frames : List JsonFrame) : JsonToken → Option JsonState
  | .openArray => if frames.length < maxDepth then some (firstItem frames) else none
  | .openObject => if frames.length < maxDepth then some (firstName frames) else none
  | token => token.scalar?.map (complete · frames)

/-- The state after a token, if it may come. -/
def next? : JsonState → JsonToken → Option JsonState
  | value frames, token => begin? frames token
  | firstItem outer, .closeArray => some (complete (.array []) outer)
  | firstItem outer, token => begin? (.array [] :: outer) token
  | firstName outer, .closeObject => some (complete (.object []) outer)
  | firstName outer, .text s => some (colon [] s outer)
  | name members outer, .text s => some (colon members s outer)
  | colon members s outer, .colon => some (value (.object members s :: outer))
  | complete v (.array items :: outer), .comma => some (value (.array (v :: items) :: outer))
  | complete v (.array items :: outer), .closeArray =>
    some (complete (.array (v :: items).reverse) outer)
  | complete v (.object members s :: outer), .comma => some (name ((s, v) :: members) outer)
  | complete v (.object members s :: outer), .closeObject =>
    some (complete (.object ((s, v) :: members).reverse) outer)
  | _, _ => none

def result? : JsonState → Option Json
  | complete v [] => some v
  | _ => none

end JsonState

/-- The value of a JSON document, if the text is one. -/
def Json.parse? (text : String) : Option Json := do
  let tokens ← JsonToken.ofChars? text.toList
  let state ← tokens.foldlM JsonState.next? .start
  state.result?

end DisplayLogic
