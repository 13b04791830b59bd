import DisplayLogic.Feed
import DisplayLogic.Relation

/-!
# Conditions

A condition is a boolean expression over display data: a literal, a variable that is asked for its
truth, a comparison of two operands, or a conjunction or disjunction of any number of conditions. A
variable stands for a `Source`: a constant, a feed, or an element, which shows one of two lists of
sources according to a condition of its own. Conditions and sources are therefore declared together;
being finite, no element can contain its own condition.

A comparison keeps which kinds of literals it was written with. They decide the mode: with a boolean
literal the truths are compared, otherwise with a number literal the numbers, otherwise the texts.
-/

namespace DisplayLogic

/-- The view of the operands that a comparison works on. -/
inductive Mode where
  | boolean
  | number
  | text
deriving DecidableEq, Inhabited

namespace Mode

def name : Mode → String
  | boolean => "boolean"
  | number => "number"
  | text => "string"

end Mode

/-- The kinds of literals that decide the mode of a comparison. -/
structure LiteralKinds where
  boolean : Bool
  number : Bool
deriving DecidableEq, Inhabited

namespace LiteralKinds

def none : LiteralKinds := ⟨false, false⟩

/-- The mode that the literals call for; a boolean wins over a number. -/
def mode (kinds : LiteralKinds) : Mode :=
  if kinds.boolean then .boolean else if kinds.number then .number else .text

end LiteralKinds

mutual

/-- What a variable stands for. -/
inductive Source where
  | constant (value : Constant)
  | feed (feed : Feed)
  /-- The sources of `positive` while the condition holds and those of `negative` otherwise. -/
  | element (condition : Condition) (positive negative : List Source)

/-- One side of a comparison. -/
inductive Operand where
  | source (source : Source)
  | literal (value : Constant)

/-- A boolean expression over display data. -/
inductive Condition where
  | literal (value : Bool)
  | holds (source : Source)
  | comparison (left : Operand) (relation : Relation) (right : Operand) (kinds : LiteralKinds)
  | all (conditions : List Condition)
  | any (conditions : List Condition)

end

instance : Inhabited Source := ⟨.constant default⟩

instance : Inhabited Operand := ⟨.literal default⟩

instance : Inhabited Condition := ⟨.literal true⟩

end DisplayLogic
