import DisplayLogic.Command.Arguments
import DisplayLogic.Command.Check
import DisplayLogic.Command.Documentation

/-!
# Running a command

`run` carries out what a command line asks for. Its `Outcome` says what is printed and, through
`exitCode`, how the program ends. A variables document that is not given as an option is read from
the standard input, if there is one to read.
-/

namespace DisplayLogic.Command

/-- What is said about arguments that are not understood. -/
def usageText : String :=
  "usage: hudcond [-v] check EXPRESSION [--vars JSON] [--line N] [--strict]\n" ++
  "       hudcond [-v] tree EXPRESSION [--vars JSON]\n" ++
  "       hudcond docs | doc CATEGORY | --version\n"

/-- How a command ends. -/
inductive Outcome where
  | misuse
  /-- The command was carried out, with these texts for the standard output and the standard error.
  -/
  | success (output warnings : String)
  | failure (error : Error)
deriving DecidableEq, Inhabited

namespace Outcome

def exitCode : Outcome → UInt32
  | misuse => 2
  | success _ _ => 0
  | failure _ => 1

/-- What is written to the standard output. -/
def output : Outcome → String
  | success output _ => output
  | misuse | failure _ => ""

/-- What is written to the standard error, besides the log. -/
def errorOutput : Outcome → String
  | misuse => usageText
  | success _ warnings => warnings
  | failure error => error.message ++ "\n"

/-- A text to print, or an error. -/
def ofText : Except Error String → Outcome
  | .ok text => success text ""
  | .error e => failure e

end Outcome

def versionText : String := "hudcond 0.2.0\n"

/-- What is said when a refused expression counts as true. -/
def fallbackWarning : String := "warning: expression did not compile, using fallback\n"

def CheckResult.outcome (result : CheckResult) : Outcome :=
  .success (booleanText result.value ++ "\n") (if result.fellBack then fallbackWarning else "")

/-- What is printed about a check, or why it failed. -/
def checkOutcome : Except Error CheckResult → Outcome
  | .ok result => result.outcome
  | .error e => .failure e

def documentation (name : String) : Except Error String :=
  match Category.ofName? name with
  | none => .error (.unknownCategory name)
  | some category => .ok category.text

/-- Carries out what a command line asks for, with the standard input if it can be read. -/
def Invocation.run (explain : String → String) (input : Option String) : Invocation → Outcome
  | .check expression line strict vars =>
    checkOutcome (Command.check explain (vars <|> input) ⟨expression, line⟩ strict)
  | .tree expression vars =>
    .ofText ((outline explain (vars <|> input) ⟨expression, 1⟩).map linesText)
  | .docs => .success overview ""
  | .doc category => .ofText (documentation category)

/-- Whether an invocation reads the standard input. -/
def Invocation.readsInput : Invocation → Bool
  | .check _ _ _ vars => vars.isNone
  | .tree _ vars => vars.isNone
  | _ => false

def run (explain : String → String) (arguments : List String) (input : Option String) : Outcome :=
  match Invocation.ofArguments arguments with
  | .error .misuse => .misuse
  | .error .version => .success versionText ""
  | .ok invocation => invocation.run explain input

end DisplayLogic.Command
