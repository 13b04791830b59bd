import DisplayLogic.Batch
import DisplayLogic.Condition.Eval
import DisplayLogic.Variables

/-!
# Checking an expression

The two commands that compile an expression against a variables document. `check` finds its truth; a
refused expression is an error if the check is strict and counts as true otherwise. `outline` gives
the lines of the compiled condition and never makes do with a refused expression.

A text that is no JSON is refused with the words of its reader. What they are is left open:
`explain` gives them for every text, and the commands only pass them on.
-/

namespace DisplayLogic.Command

/-- Why a command fails. -/
inductive Error where
  | refused (error : CompileError)
  /-- The variables are no JSON, for the reason that the reader gives. -/
  | invalidJson (reason : String)
  | invalidDocument (error : DocumentError)
  | unknownCategory (name : String)
deriving DecidableEq, Inhabited

namespace Error

def message : Error → String
  | refused e => "Compile error: " ++ e.message
  | invalidJson reason => "Invalid JSON: " ++ reason
  | invalidDocument e => "Invalid variables document: " ++ e.message
  | unknownCategory name =>
    "Unknown category: '" ++ name ++ "'\nRun 'hudcond docs' to see available categories."

end Error

variable (explain : String → String)

/-- The registry of a variables document given as text; without a document it is empty. -/
def registryOf : Option String → Except Error Registry
  | none => .ok .empty
  | some text =>
    match Json.parse? text with
    | none => .error (.invalidJson (explain text))
    | some document => (Registry.ofDocument document).mapError .invalidDocument

/-- The result of a check. -/
structure CheckResult where
  value : Bool
  fellBack : Bool
  groups : Groups
deriving Inhabited

/-- No cell holds anything, for a document has no cells. -/
def noCells : Cells := fun _ => none

/-- The result of checking an expression against a registry. -/
def checkAgainst (r : Registry) (e : Expression) (strict : Bool) : Except Error CheckResult :=
  let c := r.compile e
  match c.outcome, strict with
  | .error error, true => .error (.refused error)
  | _, _ => .ok ⟨(c.condition.eval noCells).value, c.isRefused, c.groups .empty⟩

/-- Finds the truth of an expression for the variables of a document. -/
def check (document : Option String) (e : Expression) (strict : Bool) :
    Except Error CheckResult := do
  checkAgainst (← registryOf explain document) e strict

/-- What a lenient check reports to the log about a refused expression. -/
def warnings (c : Compilation) (e : Expression) (strict : Bool) : List LogRecord :=
  match c.outcome, strict with
  | .error error, false => [⟨.warning, e.refusal error⟩]
  | _, _ => []

def checkLog (document : Option String) (e : Expression) (strict : Bool) : List LogRecord :=
  match registryOf explain document with
  | .error _ => []
  | .ok r =>
    let c := r.compile e
    c.bindings.map Binding.record ++ warnings c e strict

/-- The outline of an expression compiled against the variables of a document. -/
def outline (document : Option String) (e : Expression) : Except Error (List String) := do
  let r ← registryOf explain document
  let condition ← (r.compile e).outcome.mapError .refused
  return condition.outline

end DisplayLogic.Command
