/-!
# Relations between two values

A comparison in a condition asks for one of six relations. Two values are ordered in one of three
ways or, when a number is indeterminate, not at all, and `Relation.accepts` says which outcomes
satisfy a relation: values without an order are different and nothing else.
-/

namespace DisplayLogic

/-- What a comparison asks of two values. -/
inductive Relation where
  | less
  | lessEqual
  | greater
  | greaterEqual
  | equal
  | notEqual
deriving DecidableEq, Inhabited

namespace Relation

/-- Every relation, in the order of the declaration. -/
def all : List Relation := [less, lessEqual, greater, greaterEqual, equal, notEqual]

def symbol : Relation → String
  | less => "<"
  | lessEqual => "<="
  | greater => ">"
  | greaterEqual => ">="
  | equal => "="
  | notEqual => "!="

def ofSymbol? (s : String) : Option Relation := all.find? fun r => r.symbol == s

/-- Whether an outcome of ordering two values satisfies the relation; no outcome means that the
values have no order. -/
def accepts : Relation → Option Ordering → Bool
  | notEqual, none => true
  | _, none => false
  | less, some o => o == .lt
  | lessEqual, some o => o != .gt
  | greater, some o => o == .gt
  | greaterEqual, some o => o != .lt
  | equal, some o => o == .eq
  | notEqual, some o => o != .eq

@[simp]
theorem ofSymbol?_symbol (r : Relation) : ofSymbol? r.symbol = some r := by cases r <;> decide

/-- Without an order only difference holds. -/
theorem accepts_none (r : Relation) : r.accepts none = (r == notEqual) := by cases r <;> rfl

end Relation

end DisplayLogic
