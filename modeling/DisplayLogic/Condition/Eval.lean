import DisplayLogic.Condition.Basic

/-!
# Evaluation

`Condition.eval` finds the truth of a condition for given contents of the cells, together with the
reads that this takes. A conjunction stops at its first false member and a disjunction at its first
true one. A comparison always looks at both operands, the left one first, once each and through the
view of its mode.

Sources are read in the same way. An element is asked for its condition once per view, and only its
text goes on to the members, those of the chosen branch alone, whose texts it joins.
-/

namespace DisplayLogic

mutual

def Source.text (cells : Cells) : Source → Observed String
  | .constant c => pure c.asText
  | .feed f => Observed.look f (·.text cells)
  | .element condition positive negative => do
    if ← condition.eval cells then Source.joinedText cells positive
    else Source.joinedText cells negative

/-- The texts of several sources, joined. -/
def Source.joinedText (cells : Cells) : List Source → Observed String
  | [] => pure ""
  | s :: rest => do
    let first ← s.text cells
    let others ← Source.joinedText cells rest
    return first ++ others

def Source.number (cells : Cells) : Source → Observed Number
  | .constant c => pure c.asNumber
  | .feed f => Observed.look f (·.number cells)
  | .element condition _ _ => do return booleanNumber (← condition.eval cells)

def Source.truth (cells : Cells) : Source → Observed Bool
  | .constant c => pure c.asTruth
  | .feed f => Observed.look f (·.truth cells)
  | .element condition _ _ => condition.eval cells

def Operand.text (cells : Cells) : Operand → Observed String
  | .source s => s.text cells
  | .literal c => pure c.asText

def Operand.number (cells : Cells) : Operand → Observed Number
  | .source s => s.number cells
  | .literal c => pure c.asNumber

def Operand.truth (cells : Cells) : Operand → Observed Bool
  | .source s => s.truth cells
  | .literal c => pure c.asTruth

def Condition.eval (cells : Cells) : Condition → Observed Bool
  | .literal b => pure b
  | .holds s => s.truth cells
  | .comparison left relation right kinds =>
    match kinds.mode with
    | .boolean => do
      let a ← left.truth cells
      let b ← right.truth cells
      return relation.accepts (some (compare a b))
    | .number => do
      let a ← left.number cells
      let b ← right.number cells
      return relation.accepts (a.partialCompare b)
    | .text => do
      let a ← left.text cells
      let b ← right.text cells
      return relation.accepts (some (compare a b))
  | .all conditions => Condition.evalAll cells conditions
  | .any conditions => Condition.evalAny cells conditions

/-- Whether all conditions hold, asked from the left up to the first that does not. -/
def Condition.evalAll (cells : Cells) : List Condition → Observed Bool
  | [] => pure true
  | c :: rest => do if ← c.eval cells then Condition.evalAll cells rest else return false

/-- Whether one of the conditions holds, asked from the left up to the first that does. -/
def Condition.evalAny (cells : Cells) : List Condition → Observed Bool
  | [] => pure false
  | c :: rest => do if ← c.eval cells then return true else Condition.evalAny cells rest

end

/-- The three views of a source. -/
structure Views where
  text : String
  number : Number
  truth : Bool
deriving DecidableEq, Inhabited

/-- All views of a source, looked at in the order text, number, truth. -/
def Source.views (cells : Cells) (s : Source) : Observed Views := do
  let text ← s.text cells
  let number ← s.number cells
  let truth ← s.truth cells
  return { text, number, truth }

end DisplayLogic
