import DisplayLogic.Compilation
import DisplayLogic.Log

/-!
# Compiling many expressions

`Registry.compileAll` compiles expressions in order and never fails. What it has to say goes to a
sink as `Report`s: the outline of each condition, if outlines are wanted, and one failure for each
refused text. The log sink turns reports into records behind the notes on the bindings.

The groups switched on by one expression stay on for all that follow, also when the expression was
refused.
-/

namespace DisplayLogic

/-- What a sink receives. -/
inductive Report where
  | trace (text : String)
  | failure (text : String)
deriving DecidableEq, Inhabited

namespace Report

def text : Report → String
  | trace s => s
  | failure s => s

/-- The record that the log sink makes of a report. -/
def record : Report → LogRecord
  | trace s => ⟨.debug, s⟩
  | failure s => ⟨.warning, s⟩

end Report

def Binding.record (b : Binding) : LogRecord := ⟨.trace, b.note⟩

namespace Compilation

/-- What the sink receives about an expression. Outlines are written only if they are wanted. -/
def reports (c : Compilation) (e : Expression) (outlines : Bool) : List Report :=
  match c.outcome with
  | .ok condition =>
    if outlines then .trace e.heading :: condition.outline.map .trace else []
  | .error error => [.failure (e.refusal error)]

end Compilation

/-- What became of a list of expressions. -/
structure Batch where
  /-- The conditions to use, one for each expression. -/
  conditions : List Condition
  reports : List Report
  /-- What a log sink would have written, the notes on bindings included. -/
  log : List LogRecord
  groups : Groups
deriving Inhabited

/-- Compiles expressions in order, with the given groups switched on before. -/
def Registry.compileAll (r : Registry) (outlines : Bool) (before : Groups) : List Expression → Batch
  | [] => ⟨[], [], [], before⟩
  | e :: rest =>
    let c := r.compile e
    let reports := c.reports e outlines
    let others := r.compileAll outlines (c.groups before) rest
    { conditions := c.condition :: others.conditions
      reports := reports ++ others.reports
      log := c.bindings.map Binding.record ++ reports.map Report.record ++ others.log
      groups := others.groups }

end DisplayLogic
