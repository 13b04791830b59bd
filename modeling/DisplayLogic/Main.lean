import DisplayLogic.Command.Run

/-!
# The program

Runs a command line and prints the outcome. The standard input is read only where a variables
document is missing and there is something other than a terminal to read from.
-/

open DisplayLogic.Command

/-- The standard input, if a command line needs it and it can be read. -/
def inputFor (arguments : List String) : IO (Option String) := do
  match Invocation.ofArguments arguments with
  | .ok invocation =>
    let stdin ← IO.getStdin
    if invocation.readsInput && !(← stdin.isTty) then
      return some (← (← IO.getStdin).readToEnd)
    else
      return none
  | .error _ => return none

/-- What is said about variables that are no JSON. -/
def explainInvalidJson (_ : String) : String := "the variables have to be a JSON object"

def main (arguments : List String) : IO UInt32 := do
  let outcome := run explainInvalidJson arguments (← inputFor arguments)
  IO.eprint outcome.errorOutput
  IO.print outcome.output
  return outcome.exitCode
