import DisplayLogic.Condition.Basic

/-!
# Tokens

The tokens of a condition: the marks that open and close a group, the two connectives, relations,
the three kinds of literals, and variables, which stand for the source that their name was resolved
to. Once its marks have been matched, a group is a token of its own that holds the tokens between
them.
-/

namespace DisplayLogic

/-- A token of a condition. -/
inductive Token where
  | openGroup
  | closeGroup
  | group (items : List Token)
  | or
  | and
  | relation (relation : Relation)
  | number (value : Number)
  | text (value : String)
  | boolean (value : Bool)
  | source (source : Source)
deriving Inhabited

namespace Token

def kind : Token → String
  | openGroup => "'('"
  | closeGroup => "')'"
  | group _ => "group"
  | or => "'|'"
  | and => "'&'"
  | relation _ => "comparison"
  | number _ => "number"
  | text _ => "string"
  | boolean _ => "boolean"
  | source _ => "variable"

end Token

end DisplayLogic
