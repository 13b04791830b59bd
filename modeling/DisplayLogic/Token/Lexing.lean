import DisplayLogic.Registry
import DisplayLogic.Scan
import DisplayLogic.Token.Basic

/-!
# From text to tokens

Lexemes become tokens by binding their names to a registry. A `Lexer` holds what is still to be
bound of a scanned text and gives one `Answer` at a time; after a failure it can be asked again, and
at the end of the text, or at an exclamation mark that stands alone, it repeats its last answer for
ever.

`Registry.lex` asks until the first failure or the end of the text. Its result keeps the tokens and
the bindings up to there, because bindings take effect even where the text is refused later.
-/

namespace DisplayLogic

/-- What is wrong with a text that is not made of lexemes. -/
inductive LexFault where
  /-- An exclamation mark stands without an equals sign. -/
  | loneBang (position : Nat)
  | invalidNumber (run : List Char) (position : Nat)
deriving DecidableEq, Inhabited

namespace LexFault

def message : LexFault → String
  | loneBang position => "expected '=' after '!' at position " ++ toString position
  | invalidNumber run position =>
    "invalid number " ++ Text.quote (.ofList run) ++ " at position " ++ toString position

end LexFault

/-- Why a text was not cut into tokens. -/
inductive LexError where
  | fault (fault : LexFault)
  | unresolved (error : ResolveError)
deriving DecidableEq, Inhabited

namespace LexError

def message : LexError → String
  | fault f => f.message
  | unresolved e => e.message

end LexError

/-- What a lexer answers. -/
inductive Answer where
  | finished
  /-- The next token and, for a variable, its binding. -/
  | token (token : Token) (binding? : Option Binding)
  | failure (error : LexError)
deriving Inhabited

namespace Answer

def binding? : Answer → Option Binding
  | token _ binding? => binding?
  | _ => none

end Answer

/-- The token of a lexeme, with its binding if it is a name. -/
def Registry.tokenOf (r : Registry) (line : Nat) : Lexeme → Answer
  | .openGroup => .token .openGroup none
  | .closeGroup => .token .closeGroup none
  | .or => .token .or none
  | .and => .token .and none
  | .relation relation => .token (.relation relation) none
  | .number n => .token (.number n) none
  | .text s => .token (.text s) none
  | .boolean b => .token (.boolean b) none
  | .name name =>
    match r.resolve (Name.reference name) line with
    | .ok binding => .token (.source binding.entry.source) (some binding)
    | .error e => .failure (.unresolved e)

def Registry.answerOf (r : Registry) (line : Nat) (piece : Piece) : Answer :=
  match piece.reading with
  | .lexeme l => r.tokenOf line l
  | .notNumeral run => .failure (.fault (.invalidNumber run piece.start))

def Ending.answer : Ending → Answer
  | .finished _ => .finished
  | .loneBang position => .failure (.fault (.loneBang position))

/-- The rest of a scanned text, to be bound to a registry. -/
structure Lexer where
  registry : Registry
  line : Nat
  /-- How many characters of the text are behind. -/
  position : Nat
  /-- What is found in the others. -/
  scan : Scan

namespace Lexer

def ofText (registry : Registry) (text : String) (line : Nat) : Lexer :=
  ⟨registry, line, 0, .ofChars text.toList⟩

/-- The next answer and the lexer behind what it was found in. -/
def next (l : Lexer) : Answer × Lexer :=
  match l.scan.pieces with
  | [] => (l.scan.ending.answer, { l with position := l.scan.ending.position })
  | piece :: rest =>
    (l.registry.answerOf l.line piece,
      { l with position := piece.stop, scan := { l.scan with pieces := rest } })

def answers : Nat → Lexer → List Answer
  | 0, _ => []
  | n + 1, l => l.next.1 :: answers n l.next.2

end Lexer

/-- The tokens and bindings of a text up to its end or its first failure. -/
structure Lexing where
  /-- The tokens, in order. -/
  tokens : List Token
  /-- The bindings of the variables among them, in order. -/
  bindings : List Binding
  /-- What stopped the reading before the end of the text. -/
  failure? : Option LexError
deriving Inhabited

namespace Lexing

/-- The lexing with one more answer in front; only a token lets the rest count. -/
def cons (answer : Answer) (rest : Lexing) : Lexing :=
  match answer with
  | .finished => ⟨[], [], none⟩
  | .failure e => ⟨[], [], some e⟩
  | .token t binding? =>
    { rest with tokens := t :: rest.tokens, bindings := binding?.toList ++ rest.bindings }

def ofScan (r : Registry) (line : Nat) (scan : Scan) : Lexing :=
  scan.pieces.foldr (fun piece rest => cons (r.answerOf line piece) rest)
    (cons scan.ending.answer default)

/-- The tokens, or the failure if there is one. -/
def toExcept (l : Lexing) : Except LexError (List Token) :=
  match l.failure? with
  | none => .ok l.tokens
  | some e => .error e

end Lexing

/-- The tokens and bindings of a text that stands on a line. -/
def Registry.lex (r : Registry) (text : String) (line : Nat) : Lexing :=
  .ofScan r line (.ofChars text.toList)

end DisplayLogic
