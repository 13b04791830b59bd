import DisplayLogic.Condition.OfTokens
import DisplayLogic.Condition.Outline
import DisplayLogic.Token.Lexing

/-!
# Compiling a text

`Registry.compile` takes the text of a condition through all stages: it is cut into tokens bound to
the registry, the marks of groups are matched, and the nested tokens are read as a condition. The
first stage that fails decides the error. A `Compilation` is the outcome together with the bindings
made on the way, which switch on data groups whatever the outcome is.

A host that must go on uses `Compilation.condition`, which is always true for a text that was
refused.
-/

namespace DisplayLogic

/-- The text of a condition and the line that it stands on. -/
structure Expression where
  text : String
  line : Nat
deriving DecidableEq, Inhabited

/-- Why a text is no condition. -/
inductive CompileError where
  | lexical (fault : LexFault)
  | structural (error : ParseError)
  | resolution (error : ResolveError)
deriving DecidableEq, Inhabited

namespace CompileError

/-- The error of a text that was not cut into tokens. -/
def ofLexError : LexError → CompileError
  | .fault f => lexical f
  | .unresolved e => resolution e

def message : CompileError → String
  | lexical f => "lex error: " ++ f.message
  | structural e => "structural error: " ++ e.message
  | resolution e => "resolution error: " ++ e.message

end CompileError

/-- What became of a text. -/
structure Compilation where
  /-- The condition, or why there is none. -/
  outcome : Except CompileError Condition
  bindings : List Binding
deriving Inhabited

namespace Compilation

/-- The compilation of a text that was cut into tokens, or was not. -/
def ofLexing (l : Lexing) : Compilation where
  outcome := do
    let tokens ← l.toExcept.mapError .ofLexError
    let nested ← (Token.nest tokens).mapError .structural
    (Condition.ofTokens nested).mapError .structural
  bindings := l.bindings

/-- The condition that stands in for a text that was refused. -/
def fallback : Condition := .literal true

/-- The condition to use, whether or not the text was refused. -/
def condition (c : Compilation) : Condition :=
  match c.outcome with
  | .ok condition => condition
  | .error _ => fallback

def isRefused (c : Compilation) : Bool :=
  match c.outcome with
  | .ok _ => false
  | .error _ => true

def groups (c : Compilation) (before : Groups) : Groups := before.bindAll c.bindings

end Compilation

def Registry.compile (r : Registry) (e : Expression) : Compilation :=
  .ofLexing (r.lex e.text e.line)

def Expression.refusal (e : Expression) (error : CompileError) : String :=
  "Conditional on line " ++ toString e.line ++ " couldn't be parsed (" ++ Text.quote e.text ++
    "): " ++ error.message

/-- The line above the outline of a compiled expression. -/
def Expression.heading (e : Expression) : String :=
  "Tree for conditional on line " ++ toString e.line ++ ":"

end DisplayLogic
