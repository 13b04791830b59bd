import DisplayLogic.Condition.Inspect

/-!
# Outlines

The outline of a condition is a list of lines, one for each node and two more for the operands of a
comparison, indented by two spaces for each level below the root. `Condition.outline` gives the
lines, which show everything that decides the truth of the condition: literals, relations and modes,
operands, and for variables the diagnostic text of their source.
-/

namespace DisplayLogic

def indent (depth : Nat) : String := .ofList (List.replicate (2 * depth) ' ')

def Operand.inspect : Operand → String
  | .source s => "Variable: " ++ s.inspect
  | .literal (.text s) => Text.quote s
  | .literal (.number n) => n.text
  | .literal (.boolean b) => booleanText b

mutual

/-- The lines of a condition whose root stands at the given depth. -/
def Condition.outlineAt (depth : Nat) : Condition → List String
  | .literal b => [indent depth ++ "Literal: " ++ booleanText b]
  | .holds s => [indent depth ++ "Variable: " ++ s.inspect]
  | .comparison left relation right kinds =>
    [indent depth ++ "Comparison: " ++ relation.symbol ++ " (" ++ kinds.mode.name ++ ")",
      indent (depth + 1) ++ "left: " ++ left.inspect,
      indent (depth + 1) ++ "right: " ++ right.inspect]
  | .all conditions => (indent depth ++ "And") :: Condition.outlinesAt (depth + 1) conditions
  | .any conditions => (indent depth ++ "Or") :: Condition.outlinesAt (depth + 1) conditions

/-- The lines of several conditions at the given depth, one after the other. -/
def Condition.outlinesAt (depth : Nat) : List Condition → List String
  | [] => []
  | c :: rest => c.outlineAt depth ++ Condition.outlinesAt depth rest

end

def Condition.outline (c : Condition) : List String := c.outlineAt 0

/-- The lines of several conditions are the lines of each, in order. -/
theorem Condition.outlinesAt_eq_flatMap (depth : Nat) (conditions : List Condition) :
    Condition.outlinesAt depth conditions = conditions.flatMap (·.outlineAt depth) := by
  induction conditions with
  | nil => rfl
  | cons c rest ih => rw [Condition.outlinesAt, ih, List.flatMap_cons]

end DisplayLogic
